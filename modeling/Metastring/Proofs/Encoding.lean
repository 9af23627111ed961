import Mathlib
import Metastring.Utf8

/-!
# Texts and their bytes

Decoding a byte string succeeds on the encodings of texts and on nothing else,
and it gives back the text that was encoded.  The bounds on the second byte of a
sequence are those that leave every character a single encoding.
-/

namespace Metastring

namespace Utf8

section Sequences

/-- The least second byte of three.  It leaves out what fits in two bytes. -/
def leastOfThree (first : UInt8) : UInt8 :=
  if first = 0xE0 then 0xA0 else 0x80

/-- The greatest second byte of three.  It leaves out the surrogates. -/
def greatestOfThree (first : UInt8) : UInt8 :=
  if first = 0xED then 0x9F else 0xBF

/-- The least second byte of four.  It leaves out what fits in three bytes. -/
def leastOfFour (first : UInt8) : UInt8 :=
  if first = 0xF0 then 0x90 else 0x80

/-- The greatest second byte of four.  It leaves out what is no code point. -/
def greatestOfFour (first : UInt8) : UInt8 :=
  if first = 0xF4 then 0x8F else 0xBF

/-- The first byte tells how many bytes a sequence has and bounds the second. -/
theorem pieceAt_eq (first : UInt8) (rest : List UInt8) :
    pieceAt first rest =
      if first.toNat < 0x80 then .scalar (Char.ofNat first.toNat) 0
      else if first.toNat < 0xC2 then .malformed 0
      else if first.toNat < 0xE0 then pieceOfTwo first rest
      else if first.toNat < 0xF0 then
        pieceOfThree first (leastOfThree first) (greatestOfThree first) rest
      else if first.toNat < 0xF5 then
        pieceOfFour first (leastOfFour first) (greatestOfFour first) rest
      else .malformed 0 := by
  unfold pieceAt leastOfThree greatestOfThree leastOfFour greatestOfFour
  simp only [UInt8.lt_iff_toNat_lt, UInt8.ext_iff, UInt8.reduceToNat]
  grind

/-- A byte that continues a sequence, given the bits that it carries. -/
def tailByte (bits : Nat) : UInt8 :=
  UInt8.ofNat (bits % 64 + 0x80)

/-- The bytes of the character with the given number. -/
def numberBytes (number : Nat) : List UInt8 :=
  if number < 0x80 then [UInt8.ofNat number]
  else if number < 0x800 then
    [UInt8.ofNat (number / 64 + 0xC0), tailByte number]
  else if number < 0x10000 then
    [UInt8.ofNat (number / 4096 + 0xE0), tailByte (number / 64),
      tailByte number]
  else
    [UInt8.ofNat (number / 262144 + 0xF0), tailByte (number / 4096),
      tailByte (number / 64), tailByte number]

theorem encodeChar_eq (char : Char) :
    String.utf8EncodeChar char = numberBytes char.toNat := by
  have inRange : char.toNat < 0x110000 := by
    have valid : char.toNat.isValidChar := char.valid
    omega
  have same : char.val.toNat = char.toNat := rfl
  unfold String.utf8EncodeChar numberBytes tailByte
  simp only [same, ← Nat.lt_succ_iff, Nat.reduceAdd, Nat.succ_eq_add_one]
  split
  · rfl
  split
  · rw [Nat.mod_eq_of_lt (a := char.toNat / 64) (by omega)]
  split
  · rw [Nat.mod_eq_of_lt (a := char.toNat / 4096) (by omega)]
  · rw [Nat.mod_eq_of_lt (a := char.toNat / 262144) (by omega)]

theorem toNat_tailByte (bits : Nat) :
    (tailByte bits).toNat = bits % 64 + 0x80 := by
  rw [tailByte, UInt8.toNat_ofNat', Nat.mod_eq_of_lt (by omega)]

theorem toNat_byte {number : Nat} (small : number < 256) :
    (UInt8.ofNat number).toNat = number := by
  rw [UInt8.toNat_ofNat', Nat.mod_eq_of_lt small]

theorem continues_iff (byte : UInt8) :
    continues byte = true ↔ 0x80 ≤ byte.toNat ∧ byte.toNat ≤ 0xBF := by
  simp [continues, UInt8.le_iff_toNat_le]

theorem continues_tailByte (bits : Nat) : continues (tailByte bits) = true := by
  rw [continues_iff, toNat_tailByte]
  omega

theorem tailBits_tailByte (bits : Nat) : tailBits (tailByte bits) = bits % 64 := by
  rw [tailBits, toNat_tailByte]
  omega

/-- A number is written as a byte of its own, or as a first byte with tail bytes
behind it. -/
theorem numberBytes_cases (number : Nat) :
    (number < 0x80 ∧ numberBytes number = [UInt8.ofNat number]) ∨
      (0x80 ≤ number ∧ ∃ first tail, numberBytes number = first :: tail ∧
        ∀ byte ∈ tail, 0x80 ≤ byte) := by
  have isTail (bits : Nat) : 0x80 ≤ tailByte bits := by
    rw [UInt8.le_iff_toNat_le, toNat_tailByte]
    exact Nat.le_add_left 0x80 (bits % 64)
  unfold numberBytes
  split
  case isTrue single => exact .inl ⟨single, rfl⟩
  refine .inr ⟨by omega, ?_⟩
  split
  · exact ⟨_, _, rfl, by simp [isTail]⟩
  split
  · exact ⟨_, _, rfl, by simp [isTail]⟩
  · exact ⟨_, _, rfl, by simp [isTail]⟩

theorem pieceAt_two {number : Nat} (atLeast : 0x80 ≤ number)
    (below : number < 0x800) (rest : List UInt8) :
    pieceAt (UInt8.ofNat (number / 64 + 0xC0)) (tailByte number :: rest) =
      .scalar (Char.ofNat number) 1 := by
  have value : (UInt8.ofNat (number / 64 + 0xC0)).toNat =
      number / 64 + 0xC0 := toNat_byte (by omega)
  rw [pieceAt_eq, value, if_neg (by omega), if_neg (by omega),
    if_pos (by omega)]
  simp only [pieceOfTwo, continues_tailByte, if_true, tailBits_tailByte, value]
  congr
  omega

theorem pieceAt_three {number : Nat} (valid : number.isValidChar)
    (atLeast : 0x800 ≤ number) (below : number < 0x10000) (rest : List UInt8) :
    pieceAt (UInt8.ofNat (number / 4096 + 0xE0))
        (tailByte (number / 64) :: tailByte number :: rest) =
      .scalar (Char.ofNat number) 2 := by
  have value : (UInt8.ofNat (number / 4096 + 0xE0)).toNat =
      number / 4096 + 0xE0 := toNat_byte (by omega)
  have inside : leastOfThree (UInt8.ofNat (number / 4096 + 0xE0)) ≤
        tailByte (number / 64) ∧
      tailByte (number / 64) ≤
        greatestOfThree (UInt8.ofNat (number / 4096 + 0xE0)) := by
    simp only [leastOfThree, greatestOfThree, UInt8.ext_iff, value,
      UInt8.le_iff_toNat_le, toNat_tailByte, apply_ite UInt8.toNat,
      UInt8.reduceToNat]
    constructor <;> split <;> omega
  rw [pieceAt_eq, value, if_neg (by omega), if_neg (by omega),
    if_neg (by omega), if_pos (by omega)]
  simp only [pieceOfThree, inside, continues_tailByte, if_true,
    tailBits_tailByte, value, decide_true, Bool.and_self]
  congr
  omega

theorem pieceAt_four {number : Nat} (valid : number.isValidChar)
    (atLeast : 0x10000 ≤ number) (rest : List UInt8) :
    pieceAt (UInt8.ofNat (number / 262144 + 0xF0))
        (tailByte (number / 4096) :: tailByte (number / 64) ::
          tailByte number :: rest) =
      .scalar (Char.ofNat number) 3 := by
  have value : (UInt8.ofNat (number / 262144 + 0xF0)).toNat =
      number / 262144 + 0xF0 := toNat_byte (by omega)
  have inside : leastOfFour (UInt8.ofNat (number / 262144 + 0xF0)) ≤
        tailByte (number / 4096) ∧
      tailByte (number / 4096) ≤
        greatestOfFour (UInt8.ofNat (number / 262144 + 0xF0)) := by
    simp only [leastOfFour, greatestOfFour, UInt8.ext_iff, value,
      UInt8.le_iff_toNat_le, toNat_tailByte, apply_ite UInt8.toNat,
      UInt8.reduceToNat]
    constructor <;> split <;> omega
  rw [pieceAt_eq, value, if_neg (by omega), if_neg (by omega),
    if_neg (by omega), if_neg (by omega), if_pos (by omega)]
  simp only [pieceOfFour, inside, continues_tailByte, if_true,
    tailBits_tailByte, value, decide_true, Bool.and_self]
  congr
  omega

/-- The bytes of a character are read as the character, whatever follows. -/
theorem pieceAt_numberBytes (char : Char) (rest : List UInt8) :
    ∃ first tail, numberBytes char.toNat = first :: tail ∧
      pieceAt first (tail ++ rest) = .scalar char tail.length := by
  have valid : char.toNat.isValidChar := char.valid
  generalize isNumber : char.toNat = number at valid
  obtain rfl : char = Char.ofNat number := by rw [← isNumber, Char.ofNat_toNat]
  unfold numberBytes
  split
  · have value : (UInt8.ofNat number).toNat = number := toNat_byte (by omega)
    refine ⟨_, _, rfl, ?_⟩
    rw [pieceAt_eq, value, if_pos ‹_›]
    rfl
  split
  · exact ⟨_, _, rfl, pieceAt_two (by omega) ‹_› rest⟩
  split
  · exact ⟨_, _, rfl, pieceAt_three valid (by omega) ‹_› rest⟩
  · exact ⟨_, _, rfl, pieceAt_four valid (by omega) rest⟩

theorem exists_of_pieceOfTwo {first : UInt8} {rest : List UInt8} {char : Char}
    {extra : Nat} (piece : pieceOfTwo first rest = .scalar char extra) :
    ∃ second after, rest = [second] ++ after ∧ extra = 1 ∧
      continues second = true ∧
      char = Char.ofNat (first.toNat % 32 * 64 + tailBits second) := by
  unfold pieceOfTwo at piece
  split at piece
  case h_1 => contradiction
  case h_2 second after =>
    split at piece
    case isFalse => contradiction
    case isTrue isTail =>
      obtain ⟨rfl, rfl⟩ := Piece.scalar.inj piece
      exact ⟨second, after, rfl, rfl, isTail, rfl⟩

theorem exists_of_pieceOfThree {first low high : UInt8} {rest : List UInt8}
    {char : Char} {extra : Nat}
    (piece : pieceOfThree first low high rest = .scalar char extra) :
    ∃ second third after, rest = [second, third] ++ after ∧ extra = 2 ∧
      low ≤ second ∧ second ≤ high ∧ continues third = true ∧
      char = Char.ofNat (first.toNat % 16 * 4096 + tailBits second * 64 +
        tailBits third) := by
  unfold pieceOfThree at piece
  split at piece
  case h_1 => contradiction
  case h_2 second rest =>
    split at piece
    case isFalse => contradiction
    case isTrue inside =>
      split at piece
      case h_1 => contradiction
      case h_2 third after =>
        split at piece
        case isFalse => contradiction
        case isTrue isTail =>
          obtain ⟨rfl, rfl⟩ := Piece.scalar.inj piece
          simp only [Bool.and_eq_true, decide_eq_true_eq] at inside
          exact ⟨second, third, after, rfl, rfl, inside.1, inside.2, isTail,
            rfl⟩

theorem exists_of_pieceOfFour {first low high : UInt8} {rest : List UInt8}
    {char : Char} {extra : Nat}
    (piece : pieceOfFour first low high rest = .scalar char extra) :
    ∃ second third fourth after, rest = [second, third, fourth] ++ after ∧
      extra = 3 ∧ low ≤ second ∧ second ≤ high ∧ continues third = true ∧
      continues fourth = true ∧
      char = Char.ofNat (first.toNat % 8 * 262144 + tailBits second * 4096 +
        tailBits third * 64 + tailBits fourth) := by
  unfold pieceOfFour at piece
  split at piece
  case h_1 => contradiction
  case h_2 second rest =>
    split at piece
    case isFalse => contradiction
    case isTrue inside =>
      split at piece
      case h_1 => contradiction
      case h_2 third rest =>
        split at piece
        case isFalse => contradiction
        case isTrue isThird =>
          split at piece
          case h_1 => contradiction
          case h_2 fourth after =>
            split at piece
            case isFalse => contradiction
            case isTrue isFourth =>
              obtain ⟨rfl, rfl⟩ := Piece.scalar.inj piece
              simp only [Bool.and_eq_true, decide_eq_true_eq] at inside
              exact ⟨second, third, fourth, after, rfl, rfl, inside.1, inside.2,
                isThird, isFourth, rfl⟩

theorem secondOfThree_bounds {first second : UInt8}
    (atLeast : leastOfThree first ≤ second)
    (atMost : second ≤ greatestOfThree first) :
    0x80 ≤ second.toNat ∧ second.toNat ≤ 0xBF ∧
      (first.toNat = 0xE0 → 0xA0 ≤ second.toNat) ∧
      (first.toNat = 0xED → second.toNat ≤ 0x9F) := by
  simp only [leastOfThree, greatestOfThree, UInt8.ext_iff,
    UInt8.le_iff_toNat_le, apply_ite UInt8.toNat, UInt8.reduceToNat] at *
  split at atLeast <;> split at atMost <;> omega

theorem secondOfFour_bounds {first second : UInt8}
    (atLeast : leastOfFour first ≤ second)
    (atMost : second ≤ greatestOfFour first) :
    0x80 ≤ second.toNat ∧ second.toNat ≤ 0xBF ∧
      (first.toNat = 0xF0 → 0x90 ≤ second.toNat) ∧
      (first.toNat = 0xF4 → second.toNat ≤ 0x8F) := by
  simp only [leastOfFour, greatestOfFour, UInt8.ext_iff,
    UInt8.le_iff_toNat_le, apply_ite UInt8.toNat, UInt8.reduceToNat] at *
  split at atLeast <;> split at atMost <;> omega

theorem toNat_ofNat {number : Nat} (valid : number.isValidChar) :
    (Char.ofNat number).toNat = number := by
  rw [Char.toNat_ofNat, if_pos valid]

theorem numberBytes_two {first second : UInt8} (atLeast : 0xC2 ≤ first.toNat)
    (below : first.toNat < 0xE0) (isTail : continues second = true) :
    numberBytes
        (Char.ofNat (first.toNat % 32 * 64 + tailBits second)).toNat =
      [first, second] := by
  rw [continues_iff] at isTail
  rw [tailBits, toNat_ofNat (.inl (by omega)), numberBytes,
    if_neg (by omega), if_pos (by omega)]
  simp only [List.cons.injEq, ← UInt8.toNat_inj, toNat_tailByte,
    UInt8.toNat_ofNat', and_true]
  omega

theorem numberBytes_three {first second third : UInt8}
    (atLeast : 0xE0 ≤ first.toNat) (below : first.toNat < 0xF0)
    (least : leastOfThree first ≤ second)
    (greatest : second ≤ greatestOfThree first)
    (isTail : continues third = true) :
    numberBytes
        (Char.ofNat (first.toNat % 16 * 4096 + tailBits second * 64 +
          tailBits third)).toNat =
      [first, second, third] := by
  rw [continues_iff] at isTail
  have bounds := secondOfThree_bounds least greatest
  rw [tailBits, tailBits, toNat_ofNat (by unfold Nat.isValidChar; omega),
    numberBytes, if_neg (by omega), if_neg (by omega), if_pos (by omega)]
  simp only [List.cons.injEq, ← UInt8.toNat_inj, toNat_tailByte,
    UInt8.toNat_ofNat', and_true]
  omega

theorem numberBytes_four {first second third fourth : UInt8}
    (atLeast : 0xF0 ≤ first.toNat) (below : first.toNat < 0xF5)
    (least : leastOfFour first ≤ second)
    (greatest : second ≤ greatestOfFour first)
    (isThird : continues third = true) (isFourth : continues fourth = true) :
    numberBytes
        (Char.ofNat (first.toNat % 8 * 262144 + tailBits second * 4096 +
          tailBits third * 64 + tailBits fourth)).toNat =
      [first, second, third, fourth] := by
  rw [continues_iff] at isThird isFourth
  have bounds := secondOfFour_bounds least greatest
  rw [tailBits, tailBits, tailBits,
    toNat_ofNat (by unfold Nat.isValidChar; omega), numberBytes,
    if_neg (by omega), if_neg (by omega), if_neg (by omega)]
  simp only [List.cons.injEq, ← UInt8.toNat_inj, toNat_tailByte,
    UInt8.toNat_ofNat', and_true]
  omega

/-- What is read as a character begins with the bytes of the character. -/
theorem exists_of_pieceAt {first : UInt8} {rest : List UInt8} {char : Char}
    {extra : Nat} (piece : pieceAt first rest = .scalar char extra) :
    ∃ tail after, rest = tail ++ after ∧ extra = tail.length ∧
      numberBytes char.toNat = first :: tail := by
  rw [pieceAt_eq] at piece
  split at piece
  case isTrue single =>
    obtain ⟨rfl, rfl⟩ := Piece.scalar.inj piece
    refine ⟨[], rest, rfl, rfl, ?_⟩
    rw [toNat_ofNat (.inl (by omega)), numberBytes, if_pos single,
      UInt8.ofNat_toNat]
  split at piece
  case isTrue => contradiction
  split at piece
  case isTrue =>
    obtain ⟨second, after, rfl, rfl, isTail, rfl⟩ := exists_of_pieceOfTwo piece
    exact ⟨[second], after, rfl, rfl, numberBytes_two (by omega) ‹_› isTail⟩
  split at piece
  case isTrue =>
    obtain ⟨second, third, after, rfl, rfl, least, greatest, isTail, rfl⟩ :=
      exists_of_pieceOfThree piece
    exact ⟨[second, third], after, rfl, rfl,
      numberBytes_three (by omega) ‹_› least greatest isTail⟩
  split at piece
  case isTrue =>
    obtain ⟨second, third, fourth, after, rfl, rfl, least, greatest, isThird,
      isFourth, rfl⟩ := exists_of_pieceOfFour piece
    exact ⟨[second, third, fourth], after, rfl, rfl,
      numberBytes_four (by omega) ‹_› least greatest isThird isFourth⟩
  contradiction

end Sequences

section Texts

/-- The bytes that belong to the code point before them are passed over. -/
theorem decodeFrom_tail (index : Nat) (tail rest : List UInt8) :
    decodeFrom index tail.length (tail ++ rest) =
      decodeFrom (index + tail.length) 0 rest := by
  induction tail generalizing index with
  | nil => rfl
  | cons byte tail ih =>
      rw [List.cons_append, List.length_cons, decodeFrom, ih, Nat.add_assoc,
        Nat.add_comm 1]

theorem decodeFrom_encode (index : Nat) (letters : List Char) :
    decodeFrom index 0 (letters.flatMap String.utf8EncodeChar) =
      .ok letters := by
  induction letters generalizing index with
  | nil => rfl
  | cons letter letters ih =>
      obtain ⟨first, tail, bytes, piece⟩ := pieceAt_numberBytes letter
        (letters.flatMap String.utf8EncodeChar)
      rw [List.flatMap_cons, encodeChar_eq, bytes, List.cons_append, decodeFrom,
        piece]
      simp only [decodeFrom_tail, ih]
      rfl

theorem drop_eq_of_decodeFrom {index skip : Nat} {bytes : List UInt8}
    {letters : List Char} (decoded : decodeFrom index skip bytes = .ok letters) :
    bytes.drop skip = letters.flatMap String.utf8EncodeChar := by
  induction bytes generalizing index skip letters with
  | nil =>
      obtain rfl := Except.ok.inj decoded
      rw [List.drop_nil, List.flatMap_nil]
  | cons first rest ih =>
      cases skip with
      | succ skip => exact ih decoded
      | zero =>
          rw [decodeFrom] at decoded
          cases piece : pieceAt first rest with
          | malformed extra => simp [piece] at decoded
          | unfinished => simp [piece] at decoded
          | scalar char extra =>
              simp only [piece] at decoded
              cases decodedRest : decodeFrom (index + 1) extra rest with
              | error fault => simp [decodedRest, Except.map] at decoded
              | ok others =>
                  rw [decodedRest] at decoded
                  obtain rfl := Except.ok.inj decoded
                  obtain ⟨tail, after, rfl, rfl, bytes⟩ :=
                    exists_of_pieceAt piece
                  have behind := ih decodedRest
                  rw [List.drop_left] at behind
                  rw [List.drop_zero, List.flatMap_cons, encodeChar_eq, bytes,
                    behind, List.cons_append]

/-- What decodes to a text is the encoding of the text. -/
theorem decode_eq_ok_iff (bytes : List UInt8) (text : String) :
    decode bytes = .ok text ↔ bytes = encode text := by
  constructor
  · intro decoded
    rw [decode] at decoded
    cases letters : decodeFrom 0 0 bytes with
    | error fault => simp [letters, Except.map] at decoded
    | ok letters' =>
        rw [letters] at decoded
        obtain rfl := Except.ok.inj decoded
        rw [encode, String.toList_ofList, ← drop_eq_of_decodeFrom letters,
          List.drop_zero]
  · rintro rfl
    rw [decode, encode, decodeFrom_encode]
    exact congrArg Except.ok String.ofList_toList

theorem decode_encode (text : String) : decode (encode text) = .ok text :=
  (decode_eq_ok_iff (encode text) text).mpr rfl

end Texts

end Utf8

end Metastring
