import Metastring.Json.Skip
import Metastring.Proofs.JsonLexemes

/-!
# Values that are passed over end where they are written to end

A value that is passed over may be any well-formed value: its texts may contain
halves of surrogate pairs, its numbers may be of any size, and it may be nested
to any depth.  All of it is passed over, and nothing behind it, because the
bound grows with the number of characters.
-/

namespace Metastring.Json

mutual

/-- The text of a well-formed value, written without blanks. -/
inductive IsValue : (written : List Char) → Prop
  | null : IsValue ['n', 'u', 'l', 'l']
  | true : IsValue ['t', 'r', 'u', 'e']
  | false : IsValue ['f', 'a', 'l', 's', 'e']
  | text {inner : List Char} (passable : Passable inner) :
      IsValue ('"' :: (inner ++ ['"']))
  | number {value : Number} {written : List Char}
      (writes : WritesNumber value written) : IsValue written
  | emptyArray : IsValue ['[', ']']
  | array {inner : List Char} (elements : AreElements inner) :
      IsValue ('[' :: (inner ++ [']']))
  | emptyObject : IsValue ['\x7b', '\x7d']
  | object {inner : List Char} (entries : AreEntries inner) :
      IsValue ('\x7b' :: (inner ++ ['\x7d']))

/-- The text of one or more values with commas between them. -/
inductive AreElements : (written : List Char) → Prop
  | one {value : List Char} (isValue : IsValue value) : AreElements value
  | more {value others : List Char} (isValue : IsValue value)
      (areElements : AreElements others) : AreElements (value ++ ',' :: others)

/-- The text of one or more keys with their values, with commas between them. -/
inductive AreEntries : (written : List Char) → Prop
  | one {key value : List Char} (passable : Passable key)
      (isValue : IsValue value) : AreEntries ('"' :: (key ++ '"' :: ':' :: value))
  | more {key value others : List Char} (passable : Passable key)
      (isValue : IsValue value) (areEntries : AreEntries others) :
      AreEntries ('"' :: (key ++ '"' :: ':' :: (value ++ ',' :: others)))

end

section Heads

/-- A text starts with a character that is no blank and no closing bracket. -/
def Opens (text : List Char) : Prop :=
  ∃ head tail, text = head :: tail ∧ isSpace head = false ∧ head ≠ ']'

theorem skipSpace_of_not {head : Char} (notSpace : isSpace head = false)
    (tail : List Char) : skipSpace (head :: tail) = head :: tail :=
  List.dropWhile_cons_of_neg (by simp [notSpace])

theorem WritesNumber.head {value : Number} {written : List Char}
    (writes : WritesNumber value written) :
    ∃ head tail, written = head :: tail ∧ (head = '-' ∨ head.isDigit) := by
  cases writes with
  | negative => exact ⟨'-', _, rfl, .inl rfl⟩
  | @positive whole _ _ _ _ isWhole =>
      obtain ⟨⟨nonempty, areDigits⟩, -⟩ := isWhole
      cases whole with
      | nil => contradiction
      | cons digit digits =>
          exact ⟨digit, _, rfl, .inr (areDigits digit (List.mem_cons_self ..))⟩

/-- A character that starts a number is no blank and no bracket, and it starts
no other value. -/
theorem ne_of_starts_number {head letter : Char}
    (starts : head = '-' ∨ head.isDigit)
    (other : letter ≠ '-' ∧ letter.isDigit = false) : head ≠ letter := by
  rintro rfl
  rcases starts with rfl | isDigit
  · exact other.1 rfl
  · rw [other.2] at isDigit
    contradiction

theorem not_isSpace_of_starts_number {head : Char}
    (starts : head = '-' ∨ head.isDigit) : isSpace head = false := by
  simp [isSpace, ne_of_starts_number starts]

theorem IsValue.opens {written : List Char} (isValue : IsValue written) :
    Opens written := by
  cases isValue with
  | number writes =>
      obtain ⟨head, tail, rfl, starts⟩ := writes.head
      exact ⟨head, tail, rfl, not_isSpace_of_starts_number starts,
        ne_of_starts_number starts (by decide)⟩
  | _ => exact ⟨_, _, rfl, by decide, by decide⟩

theorem AreElements.opens {written : List Char}
    (areElements : AreElements written) : Opens written := by
  cases areElements with
  | one isValue => exact isValue.opens
  | more isValue =>
      obtain ⟨head, tail, rfl, opens⟩ := isValue.opens
      exact ⟨head, _, rfl, opens⟩

theorem AreEntries.quoted {written : List Char}
    (areEntries : AreEntries written) : ∃ tail, written = '"' :: tail := by
  cases areEntries <;> exact ⟨_, rfl⟩

end Heads

section Skipping

theorem skipScalar_number {value : Number} {written rest : List Char}
    (writes : WritesNumber value written) (ends : Ends rest) :
    skipScalar (written ++ rest) = .ok rest := by
  have read := number_append writes ends
  obtain ⟨head, tail, rfl, starts⟩ := writes.head
  rw [List.cons_append] at read ⊢
  rw [skipScalar, read]
  · rfl
  all_goals
    rintro _ ⟨⟩
    exact ne_of_starts_number starts (by decide) rfl

/-- Without an opening bracket, a value contains no other values. -/
theorem skipValueWithin_scalar (bound : Nat) {head : Char} {tail : List Char}
    (notSpace : isSpace head = false) (notArray : head ≠ '[')
    (notObject : head ≠ '\x7b') :
    skipValueWithin (bound + 1) (head :: tail) = skipScalar (head :: tail) := by
  rw [skipValueWithin, skipSpace_of_not notSpace]
  split
  case h_1 isArray => exact absurd (List.cons.inj isArray).1 notArray
  case h_2 isObject => exact absurd (List.cons.inj isObject).1 notObject
  case h_3 => rfl

theorem afterWord_quote (text : List Char) :
    afterWord ['"'] (skipSpace ('"' :: text)) = .ok text :=
  rfl

theorem afterColon_colon (text : List Char) :
    afterColon (':' :: text) = .ok text :=
  rfl

/-- Behind its key, an entry goes on with its value. -/
theorem skipEntriesWithin_key {bound : Nat} {key : List Char}
    (passable : Passable key) (text rest : List Char) :
    skipEntriesWithin (bound + 1)
        ('"' :: (key ++ '"' :: ':' :: text) ++ rest) = (do
      let rest ← skipValueWithin bound (text ++ rest)
      match skipSpace rest with
      | ',' :: text => skipEntriesWithin bound text
      | '\x7d' :: rest => .ok rest
      | _ => .error .malformed) := by
  have skipped := skipQuoted_append passable (':' :: (text ++ rest))
  rw [skipEntriesWithin, List.cons_append, List.append_assoc, List.cons_append,
    List.cons_append, afterWord_quote]
  change (skipQuoted (key ++ '"' :: ':' :: (text ++ rest)) >>= _) = _
  rw [skipped]
  rfl

-- The induction is on the bound, which pays for every bracket and every comma.
mutual

theorem skipValueWithin_append (rest : List Char) :
    (bound : Nat) → {written : List Char} → (isValue : IsValue written) →
      (ends : Ends rest) → (enough : 2 * written.length ≤ bound) →
        skipValueWithin bound (written ++ rest) = .ok rest
  | 0, _, isValue, _, enough => by
      obtain ⟨head, tail, rfl, -⟩ := isValue.opens
      simp at enough
  | _ + 1, _, .null, _, _ | _ + 1, _, .true, _, _ | _ + 1, _, .false, _, _ => rfl
  | _ + 1, _, .emptyArray, _, _ | _ + 1, _, .emptyObject, _, _ => rfl
  | bound + 1, _, .text passable, _, _ => by
      rw [List.cons_append, List.append_assoc, List.singleton_append,
        skipValueWithin_scalar bound rfl (by decide) (by decide)]
      exact skipQuoted_append passable rest
  | bound + 1, _, .number writes, ends, _ => by
      have skipped := skipScalar_number writes ends
      obtain ⟨head, tail, rfl, starts⟩ := writes.head
      rw [List.cons_append] at skipped ⊢
      rw [skipValueWithin_scalar bound (not_isSpace_of_starts_number starts)
        (ne_of_starts_number starts (by decide))
        (ne_of_starts_number starts (by decide))]
      exact skipped
  | bound + 1, _, .array elements, _, enough => by
      have skipped := skipElementsWithin_append rest bound elements
        (by simp at enough; omega)
      obtain ⟨head, tail, rfl, notSpace, notEnd⟩ := elements.opens
      rw [List.cons_append] at skipped
      simp only [List.cons_append, List.append_assoc]
      rw [skipValueWithin, skipSpace_of_not rfl]
      simp only [skipSpace_of_not notSpace]
      split
      case h_1 isEnd => exact absurd (List.cons.inj isEnd).1 notEnd
      case h_2 => exact skipped
  | bound + 1, _, .object entries, _, enough => by
      have skipped := skipEntriesWithin_append rest bound entries
        (by simp at enough; omega)
      obtain ⟨tail, rfl⟩ := entries.quoted
      rw [List.cons_append, List.append_assoc]
      exact skipped

theorem skipElementsWithin_append (rest : List Char) :
    (bound : Nat) → {written : List Char} → (elements : AreElements written) →
      (enough : 2 * written.length + 1 ≤ bound) →
        skipElementsWithin bound (written ++ ']' :: rest) = .ok rest
  | 0, _, _, enough => by omega
  | bound + 1, _, .one isValue, enough => by
      have skipped := skipValueWithin_append (']' :: rest) bound isValue
        (.bracket rest) (by omega)
      rw [skipElementsWithin, skipped]
      rfl
  | bound + 1, _, .more isValue elements, enough => by
      have skipped := skipElementsWithin_append rest bound elements
        (by simp at enough; omega)
      rw [List.append_assoc, List.cons_append, skipElementsWithin,
        skipValueWithin_append _ bound isValue (.comma _)
          (by simp at enough; omega)]
      exact skipped

theorem skipEntriesWithin_append (rest : List Char) :
    (bound : Nat) → {written : List Char} → (entries : AreEntries written) →
      (enough : 2 * written.length + 1 ≤ bound) →
        skipEntriesWithin bound (written ++ '\x7d' :: rest) = .ok rest
  | 0, _, _, enough => by omega
  | bound + 1, _, .one passable isValue, enough => by
      have skipped := skipValueWithin_append ('\x7d' :: rest) bound isValue
        (.brace rest) (by simp at enough; omega)
      rw [skipEntriesWithin_key passable, skipped]
      rfl
  | bound + 1, _, .more passable isValue entries, enough => by
      have skipped := skipEntriesWithin_append rest bound entries
        (by simp at enough; omega)
      rw [skipEntriesWithin_key passable, List.append_assoc, List.cons_append,
        skipValueWithin_append _ bound isValue (.comma _)
          (by simp at enough; omega)]
      exact skipped

end

/-- A value that is passed over is passed over whole. -/
theorem skipValue_append {written rest : List Char} (isValue : IsValue written)
    (ends : Ends rest) : skipValue (written ++ rest) = .ok rest :=
  skipValueWithin_append rest _ isValue ends (by simp; omega)

end Skipping

end Metastring.Json
