import Metastring.Proofs.Encoding
import Metastring.Proofs.ScopeSegments

/-!
# Decoding a rewritten scope

The underscore and the colon are single bytes in UTF-8, and neither byte occurs
inside a longer sequence.  So rewriting pairs of underscore bytes and decoding
gives the same characters as decoding and rewriting pairs of underscores, and a
text that is not UTF-8 is faulty in the same way at the same place.
-/

namespace Metastring

/-- Rewrite a scope's bytes from the `__` spelling to the `::` spelling. -/
def rewriteScope : List UInt8 → List UInt8 :=
  replacePairs 0x5F 0x3A

namespace Utf8

theorem continues_eq_false {byte : UInt8} (single : byte < 0x80) :
    continues byte = false := by
  have isSmall : ¬ 0x80 ≤ byte := UInt8.not_le.mpr single
  simp [continues, isSmall]

/-- Rewriting keeps the first byte unless it is a separator, and then the new
first byte is a single one too. -/
theorem rewriteScope_cases (bytes : List UInt8) :
    bytes = [] ∨
      (∃ first rest, bytes = first :: rest ∧
        rewriteScope bytes = first :: rewriteScope rest) ∨
      ∃ first rest first' rest', bytes = first :: rest ∧
        rewriteScope bytes = first' :: rest' ∧ first < 0x80 ∧
        first' < 0x80 := by
  match bytes with
  | [] => exact .inl rfl
  | [byte] => exact .inr (.inl ⟨byte, [], rfl, rfl⟩)
  | first :: second :: rest =>
    by_cases pair : first = 0x5F ∧ second = 0x5F
    · obtain ⟨rfl, rfl⟩ := pair
      exact .inr (.inr ⟨_, _, _, _, rfl, replacePairs_pair rest, by decide,
        by decide⟩)
    · exact .inr (.inl ⟨first, second :: rest, rfl,
        replacePairs_cons_cons rest pair⟩)

theorem pieceOfTwo_rewriteScope (first : UInt8) (bytes : List UInt8) :
    pieceOfTwo first (rewriteScope bytes) = pieceOfTwo first bytes := by
  rcases rewriteScope_cases bytes with rfl | ⟨second, rest, rfl, kept⟩ |
    ⟨second, rest, second', rest', rfl, changed, single, single'⟩
  · rfl
  · rw [kept]
    rfl
  · rw [changed]
    simp [pieceOfTwo, continues_eq_false single, continues_eq_false single']

theorem pieceOfThree_rewriteScope (first : UInt8) {low : UInt8} (high : UInt8)
    (lowBound : 0x80 ≤ low) (bytes : List UInt8) :
    pieceOfThree first low high (rewriteScope bytes) =
      pieceOfThree first low high bytes := by
  have outside {byte : UInt8} (single : byte < 0x80) : ¬ low ≤ byte :=
    UInt8.not_le.mpr (UInt8.lt_of_lt_of_le single lowBound)
  rcases rewriteScope_cases bytes with rfl | ⟨second, rest, rfl, kept⟩ |
    ⟨second, rest, second', rest', rfl, changed, single, single'⟩
  · rfl
  · rw [kept]
    rcases rewriteScope_cases rest with rfl | ⟨third, tail, rfl, kept⟩ |
      ⟨third, tail, third', tail', rfl, changed, single, single'⟩
    · rfl
    · rw [kept]
      rfl
    · rw [changed]
      simp [pieceOfThree, continues_eq_false single,
        continues_eq_false single']
  · rw [changed]
    simp [pieceOfThree, outside single, outside single']

theorem pieceOfFour_rewriteScope (first : UInt8) {low : UInt8} (high : UInt8)
    (lowBound : 0x80 ≤ low) (bytes : List UInt8) :
    pieceOfFour first low high (rewriteScope bytes) =
      pieceOfFour first low high bytes := by
  have outside {byte : UInt8} (single : byte < 0x80) : ¬ low ≤ byte :=
    UInt8.not_le.mpr (UInt8.lt_of_lt_of_le single lowBound)
  rcases rewriteScope_cases bytes with rfl | ⟨second, rest, rfl, kept⟩ |
    ⟨second, rest, second', rest', rfl, changed, single, single'⟩
  · rfl
  · rw [kept]
    rcases rewriteScope_cases rest with rfl | ⟨third, tail, rfl, kept⟩ |
      ⟨third, tail, third', tail', rfl, changed, single, single'⟩
    · rfl
    · rw [kept]
      rcases rewriteScope_cases tail with rfl | ⟨fourth, _, rfl, kept⟩ |
        ⟨fourth, _, fourth', _, rfl, changed, single, single'⟩
      · rfl
      · rw [kept]
        rfl
      · rw [changed]
        simp [pieceOfFour, continues_eq_false single,
          continues_eq_false single']
    · rw [changed]
      simp [pieceOfFour, continues_eq_false single, continues_eq_false single']
  · rw [changed]
    simp [pieceOfFour, outside single, outside single']

/-- What the bytes at a position hold does not depend on the spelling of the
bytes behind the first. -/
theorem pieceAt_rewriteScope (first : UInt8) (bytes : List UInt8) :
    pieceAt first (rewriteScope bytes) = pieceAt first bytes := by
  unfold pieceAt
  simp only [pieceOfTwo_rewriteScope,
    pieceOfThree_rewriteScope first _ (show 0x80 ≤ (0xA0 : UInt8) by decide),
    pieceOfThree_rewriteScope first _ (show 0x80 ≤ (0x80 : UInt8) by decide),
    pieceOfFour_rewriteScope first _ (show 0x80 ≤ (0x90 : UInt8) by decide),
    pieceOfFour_rewriteScope first _ (show 0x80 ≤ (0x80 : UInt8) by decide)]

/-- A code point of several bytes: only tail bytes follow the first, and the
code point is no underscore. -/
structure LongPiece (rest : List UInt8) (char : Char) (extra : Nat) :
    Prop where
  tails : ∀ byte ∈ rest.take extra, 0x80 ≤ byte
  not_underscore : char ≠ '_'

/-- A code point is either a byte of its own, read as the character of that
number, or made of several bytes. -/
theorem pieceAt_scalar {first : UInt8} {rest : List UInt8} {char : Char}
    {extra : Nat} (piece : pieceAt first rest = .scalar char extra) :
    (first < 0x80 ∧ char = Char.ofNat first.toNat ∧ extra = 0) ∨
      LongPiece rest char extra := by
  obtain ⟨tail, after, rfl, rfl, bytes⟩ := exists_of_pieceAt piece
  rcases numberBytes_cases char.toNat with
    ⟨single, isByte⟩ | ⟨beyond, _, _, isSequence, tails⟩
  · rw [isByte] at bytes
    obtain ⟨rfl, rfl⟩ := List.cons.inj bytes
    have value : (UInt8.ofNat char.toNat).toNat = char.toNat :=
      toNat_byte (by omega)
    refine .inl ⟨?_, ?_, rfl⟩
    · rw [UInt8.lt_iff_toNat_lt, value]
      exact single
    · rw [value, Char.ofNat_toNat]
  · rw [isSequence] at bytes
    obtain ⟨rfl, rfl⟩ := List.cons.inj bytes
    refine .inr ⟨by rwa [List.take_left], ?_⟩
    rintro rfl
    exact absurd beyond (by decide)

/-- Only the byte of the underscore is read as an underscore. -/
theorem pieceAt_underscore {first : UInt8} {rest : List UInt8} {extra : Nat}
    (piece : pieceAt first rest = .scalar '_' extra) :
    first = 0x5F ∧ extra = 0 := by
  rcases pieceAt_scalar piece with ⟨single, isByte, rfl⟩ | long
  · have isAscii : first.toNat < 0x80 := UInt8.lt_iff_toNat_lt.mp single
    have number : (Char.ofNat first.toNat).toNat = first.toNat :=
      toNat_ofNat (.inl (by omega))
    rw [← isByte] at number
    exact ⟨UInt8.toNat_inj.mp number.symm, rfl⟩
  · exact absurd rfl long.not_underscore

theorem decodeFrom_single (index : Nat) {byte : UInt8}
    (single : byte < 0x80) (rest : List UInt8) :
    decodeFrom index 0 (byte :: rest) =
      (decodeFrom (index + 1) 0 rest).map (Char.ofNat byte.toNat :: ·) := by
  simp only [decodeFrom, pieceAt, if_pos single]

theorem decodeFrom_pair (index : Nat) {byte : UInt8} (single : byte < 0x80)
    (rest : List UInt8) :
    decodeFrom index 0 (byte :: byte :: rest) =
      (decodeFrom (index + 1 + 1) 0 rest).map fun chars =>
        Char.ofNat byte.toNat :: Char.ofNat byte.toNat :: chars := by
  rw [decodeFrom_single index single, decodeFrom_single (index + 1) single]
  cases decodeFrom (index + 1 + 1) 0 rest <;> rfl

theorem exists_of_decodeFrom_underscore {index : Nat} {bytes : List UInt8}
    {chars : List Char}
    (decoded : decodeFrom index 0 bytes = .ok ('_' :: chars)) :
    ∃ rest, bytes = 0x5F :: rest := by
  have written := drop_eq_of_decodeFrom decoded
  rw [List.drop_zero, List.flatMap_cons] at written
  exact ⟨_, written⟩

/-- Where no pair of underscore bytes begins, no pair of underscores begins. -/
theorem replacePairs_decoded {index extra : Nat} {first : UInt8}
    {rest : List UInt8} {char : Char} {chars : List Char}
    (noPair : first = 0x5F → ∀ tail, rest ≠ 0x5F :: tail)
    (piece : pieceAt first rest = .scalar char extra)
    (decoded : decodeFrom (index + 1) extra rest = .ok chars) :
    replacePairs '_' ':' (char :: chars) =
      char :: replacePairs '_' ':' chars := by
  refine replacePairs_cons ?_
  rintro rfl tail rfl
  obtain ⟨isUnderscore, rfl⟩ := pieceAt_underscore piece
  obtain ⟨after, starts⟩ := exists_of_decodeFrom_underscore decoded
  exact noPair isUnderscore after starts

/-- Decoding carries the rewriting of bytes to the rewriting of characters, and
a fault to itself. -/
theorem decodeFrom_rewriteScope (index skip : Nat) (bytes : List UInt8)
    (tails : ∀ byte ∈ bytes.take skip, 0x80 ≤ byte) :
    decodeFrom index skip (rewriteScope bytes) =
      (decodeFrom index skip bytes).map (replacePairs '_' ':') := by
  match bytes, skip with
  | [], _ => rfl
  | first :: rest, skip + 1 =>
    -- A skipped byte is a tail byte, hence no underscore.
    have differs : first ≠ 0x5F := by
      rintro rfl
      exact absurd (tails 0x5F (by simp)) (by decide)
    have kept : rewriteScope (first :: rest) = first :: rewriteScope rest :=
      replacePairs_cons_of_ne rest differs
    rw [kept, decodeFrom, decodeFrom]
    exact decodeFrom_rewriteScope (index + 1) skip rest fun byte member =>
      tails byte (by simp [member])
  | first :: rest, 0 =>
    by_cases pair : first = 0x5F ∧ ∃ tail, rest = 0x5F :: tail
    · obtain ⟨rfl, tail, rfl⟩ := pair
      have changed : rewriteScope (0x5F :: 0x5F :: tail) =
          0x3A :: 0x3A :: rewriteScope tail := replacePairs_pair tail
      rw [changed, decodeFrom_pair index (by decide),
        decodeFrom_pair index (by decide),
        decodeFrom_rewriteScope (index + 1 + 1) 0 tail (by simp)]
      cases decodeFrom (index + 1 + 1) 0 tail with
      | error fault => rfl
      | ok chars => exact congrArg Except.ok (replacePairs_pair chars).symm
    have noPair : first = 0x5F → ∀ tail, rest ≠ 0x5F :: tail :=
      fun isUnderscore tail starts => pair ⟨isUnderscore, tail, starts⟩
    have kept : rewriteScope (first :: rest) = first :: rewriteScope rest :=
      replacePairs_cons noPair
    rw [kept, decodeFrom, decodeFrom, pieceAt_rewriteScope]
    cases piece : pieceAt first rest with
    | malformed extra => rfl
    | unfinished => rfl
    | scalar char extra =>
        have restTails : ∀ byte ∈ rest.take extra, 0x80 ≤ byte := by
          rcases pieceAt_scalar piece with ⟨-, -, rfl⟩ | long
          · simp
          · exact long.tails
        simp only [decodeFrom_rewriteScope (index + 1) extra rest restTails]
        cases decoded : decodeFrom (index + 1) extra rest with
        | error fault => rfl
        | ok chars =>
            exact congrArg Except.ok
              (replacePairs_decoded noPair piece decoded).symm
termination_by bytes.length

end Utf8

theorem RawText.decode_rewriteScope (bytes : List UInt8) :
    RawText.decode (some (rewriteScope bytes)) =
      (RawText.decode (some bytes)).map
        fun scope => String.ofList (joinScopes scope.toList) := by
  have cut : (rewriteScope bytes).takeWhile (· ≠ 0) =
      rewriteScope (bytes.takeWhile (· ≠ 0)) :=
    takeWhile_replacePairs (by decide) (by decide) bytes
  unfold RawText.decode Utf8.decode
  simp only [cut, Utf8.decodeFrom_rewriteScope 0 0 _
    (show ∀ byte ∈ List.take 0 _, 0x80 ≤ byte by simp)]
  cases Utf8.decodeFrom 0 0 (bytes.takeWhile (· ≠ 0)) with
  | error fault => rfl
  | ok chars =>
      simp [Except.map, Except.mapError, joinScopes_eq_replacePairs]

end Metastring
