import Mathlib
import Metastring.Decimal

/-!
# Numerals are read as the numbers they denote

The decimal numeral of a number is read as that number.
-/

namespace Metastring

section Letters

theorem decimal_toList (number : Nat) :
    (decimal number).toList = Nat.toDigits 10 number :=
  String.toList_ofList

theorem isDigit_of_mem_toDigits {number : Nat} {letter : Char}
    (isMember : letter ∈ Nat.toDigits 10 number) : letter.isDigit :=
  Nat.isDigit_of_mem_toDigits (by decide) (by decide) isMember

theorem not_mem_toDigits {letter : Char} (notDigit : ¬ letter.isDigit)
    (number : Nat) : letter ∉ Nat.toDigits 10 number :=
  mt isDigit_of_mem_toDigits notDigit

theorem hexValue?_of_isDigit {letter : Char} (isDigit : letter.isDigit) :
    hexValue? letter = some (letter.toNat - 48) ∧ letter.toNat - 48 < 10 := by
  rw [Char.isDigit_iff_toNat] at isDigit
  obtain ⟨atLeast, atMost⟩ := isDigit
  have between : '0' ≤ letter ∧ letter ≤ '9' := ⟨atLeast, atMost⟩
  have atMost' : letter.toNat ≤ 57 := atMost
  exact ⟨if_pos between, by omega⟩

theorem digitsFrom?_of_isDigit {letters : List Char}
    (areDigits : ∀ letter ∈ letters, letter.isDigit) (value : Nat) :
    digitsFrom? 10 value letters =
      some (Nat.ofDigitChars 10 letters value) := by
  induction letters generalizing value with
  | nil => simp [digitsFrom?]
  | cons letter letters ih =>
      obtain ⟨isDigit, rest⟩ := List.forall_mem_cons.mp areDigits
      obtain ⟨read, small⟩ := hexValue?_of_isDigit isDigit
      rw [digitsFrom?, read, Nat.ofDigitChars_cons, Nat.mul_comm 10 value]
      dsimp only
      rw [if_pos small, ih rest]
      rfl

/-- The numeral of a number is read as the number. -/
theorem digits?_toDigits (number : Nat) :
    digits? 10 (Nat.toDigits 10 number) = some number := by
  have read : digitsFrom? 10 0 (Nat.toDigits 10 number) = _ :=
    digitsFrom?_of_isDigit (fun _ => isDigit_of_mem_toDigits) 0
  rw [Nat.ofDigitChars_toDigits (by decide) (by decide)] at read
  rw [← read]
  generalize numeral : Nat.toDigits 10 number = letters
  cases letters with
  | nil => exact absurd numeral Nat.toDigits_ne_nil
  | cons letter letters => rfl

/-- The numeral of a size is read as the size. -/
theorem readSize?_toDigits (size : UInt64) :
    readSize? (Nat.toDigits 10 size.toNat) = some size := by
  have read : digits? 10 (Nat.toDigits 10 size.toNat) >>= size? = some size := by
    have inRange : size.toNat < UInt64.size := size.toNat_lt
    rw [digits?_toDigits, Option.bind_eq_bind, Option.bind_some, size?,
      if_pos inRange, UInt64.ofNat_toNat]
  rw [← read]
  have noSign : '+' ∉ Nat.toDigits 10 size.toNat :=
    not_mem_toDigits (by decide) _
  generalize Nat.toDigits 10 size.toNat = letters at noSign ⊢
  cases letters with
  | nil => rfl
  | cons letter letters =>
      obtain ⟨differs, -⟩ := not_or.mp (List.mem_cons.not.mp noSign)
      rw [readSize?]
      rintro rest ⟨⟩
      exact differs rfl

end Letters

end Metastring
