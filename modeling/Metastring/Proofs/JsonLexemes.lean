import Metastring.Json.Lexical
import Metastring.Json.Writer
import Metastring.Proofs.Numerals

/-!
# Quoted texts and numbers end where they are written to end

Every character of a quoted text can be written in several ways: as it is, by a
backslash and one letter, or by the hexadecimal digits of its UTF-16 units.
Whatever the choices, the text is read up to its closing quote and nothing
further.  A number has no closing mark, so what follows it has to be something
that cannot continue it.
-/

namespace Metastring.Json

section Quotes

/-- Letters and what is written for them inside quotes. -/
inductive Spells : (letters written : List Char) → Prop
  | nil : Spells [] []
  | plain {letter : Char} {letters written : List Char}
      (printable : ' ' ≤ letter) (notQuote : letter ≠ '"')
      (notEscape : letter ≠ '\\') (others : Spells letters written) :
      Spells (letter :: letters) (letter :: written)
  | short {letter escape : Char} {letters written : List Char}
      (means : shortEscape? escape = some letter)
      (others : Spells letters written) :
      Spells (letter :: letters) ('\\' :: escape :: written)
  | unit {a b c d : Char} {unit : Nat} {letters written : List Char}
      (denotes : unit? a b c d = some unit)
      (alone : ¬ (0xD800 ≤ unit ∧ unit ≤ 0xDFFF))
      (others : Spells letters written) :
      Spells (Char.ofNat unit :: letters)
        ('\\' :: 'u' :: a :: b :: c :: d :: written)
  | pair {a b c d e f g h : Char} {high low : Nat} {letters written : List Char}
      (denotesHigh : unit? a b c d = some high)
      (isHigh : 0xD800 ≤ high ∧ high ≤ 0xDBFF)
      (denotesLow : unit? e f g h = some low)
      (isLow : 0xDC00 ≤ low ∧ low ≤ 0xDFFF)
      (others : Spells letters written) :
      Spells
        (Char.ofNat ((high - 0xD800) * 1024 + (low - 0xDC00) + 0x10000) ::
          letters)
        ('\\' :: 'u' :: a :: b :: c :: d ::
          '\\' :: 'u' :: e :: f :: g :: h :: written)

/-- A text between its quotes. -/
def Quoted (text : String) (written : List Char) : Prop :=
  ∃ inner, Spells text.toList inner ∧ written = '"' :: (inner ++ ['"'])

theorem quotedLetters_append {letters written : List Char}
    (spells : Spells letters written) (rest : List Char) :
    quotedLetters (written ++ '"' :: rest) = .ok (letters, rest) := by
  induction spells with
  | nil => rfl
  | plain printable notQuote notEscape _ ih =>
      rw [List.cons_append, quotedLetters]
      · rw [if_neg (not_lt.mpr printable), ih]
        rfl
      · exact notQuote
      · rintro _ _ _ _ _ rfl
        contradiction
      · rintro _ _ rfl
        contradiction
  | short means _ ih =>
      rw [List.cons_append, List.cons_append, quotedLetters, means, ih]
      · rfl
      · rintro _ _ _ _ _ rfl
        contradiction
  | @unit _ _ _ _ unit _ _ denotes alone _ ih =>
      have notLow : ¬ (0xDC00 ≤ unit ∧ unit ≤ 0xDFFF) := by omega
      have notHigh : ¬ (0xD800 ≤ unit ∧ unit ≤ 0xDBFF) := by omega
      simp only [List.cons_append, quotedLetters, denotes, if_neg notLow,
        if_neg notHigh, ih]
      rfl
  | @pair _ _ _ _ _ _ _ _ high _ _ _ denotesHigh isHigh denotesLow isLow _ ih =>
      have notLow : ¬ (0xDC00 ≤ high ∧ high ≤ 0xDFFF) := by omega
      simp only [List.cons_append, quotedLetters, denotesHigh, denotesLow,
        if_neg notLow, if_pos isHigh, if_pos isLow, ih]
      rfl

/-- A quoted text is read as the text, up to its closing quote. -/
theorem quoted_append {text : String} {written : List Char}
    (isQuoted : Quoted text written) (rest : List Char) :
    ∃ tail, written = '"' :: tail ∧ quoted (tail ++ rest) = .ok (text, rest) := by
  obtain ⟨inner, spells, rfl⟩ := isQuoted
  refine ⟨inner ++ ['"'], rfl, ?_⟩
  rw [List.append_assoc, List.singleton_append, quoted,
    quotedLetters_append spells]
  simp only [Except.map, String.ofList_toList]

/-- What may stand between the quotes of a text that is passed over. -/
inductive Passable : (written : List Char) → Prop
  | nil : Passable []
  | plain {letter : Char} {written : List Char} (printable : ' ' ≤ letter)
      (notQuote : letter ≠ '"') (notEscape : letter ≠ '\\')
      (others : Passable written) : Passable (letter :: written)
  | short {letter escape : Char} {written : List Char}
      (means : shortEscape? escape = some letter)
      (others : Passable written) : Passable ('\\' :: escape :: written)
  | unit {a b c d : Char} {unit : Nat} {written : List Char}
      (denotes : unit? a b c d = some unit) (others : Passable written) :
      Passable ('\\' :: 'u' :: a :: b :: c :: d :: written)

theorem skipQuoted_append {written : List Char} (passable : Passable written)
    (rest : List Char) : skipQuoted (written ++ '"' :: rest) = .ok rest := by
  induction passable with
  | nil => rfl
  | plain printable notQuote notEscape _ ih =>
      rw [List.cons_append, skipQuoted]
      · rw [if_neg (not_lt.mpr printable), ih]
      · exact notQuote
      · rintro _ _ _ _ _ rfl
        contradiction
      · rintro _ _ rfl
        contradiction
  | short means _ ih =>
      rw [List.cons_append, List.cons_append, skipQuoted, means, ih]
      rintro _ _ _ _ _ rfl
      contradiction
  | unit denotes _ ih => simp only [List.cons_append, skipQuoted, denotes, ih]

theorem unit?_hexLetter {value : Nat} (small : value < 32) :
    unit? '0' '0' (hexLetter (value / 16)) (hexLetter (value % 16)) =
      some value := by
  revert value
  decide

theorem spells_escapedLetter (letter : Char) {letters written : List Char}
    (others : Spells letters written) :
    Spells (letter :: letters) (escapedLetter letter ++ written) := by
  unfold escapedLetter
  split
  iterate 7 exact .short rfl others
  case h_8 notQuote notEscape _ _ _ _ _ =>
    split
    case isFalse printable =>
      exact .plain (not_lt.mp printable) notQuote notEscape others
    case isTrue control =>
      have small : letter.toNat < 32 := control
      have spells := Spells.unit (unit?_hexLetter small) (by omega) others
      rwa [Char.ofNat_toNat] at spells

theorem quoted_writeText (text : String) :
    Quoted text (writeText text).toList := by
  have spells (letters : List Char) :
      Spells letters (letters.flatMap escapedLetter) := by
    induction letters with
    | nil => exact .nil
    | cons letter letters ih => exact spells_escapedLetter letter ih
  refine ⟨_, spells text.toList, ?_⟩
  simp [writeText]

end Quotes

section Numbers

/-- One or more digits. -/
def IsRun (digits : List Char) : Prop :=
  digits ≠ [] ∧ ∀ digit ∈ digits, digit.isDigit

/-- Digits that stand before a point: a zero only stands alone. -/
def IsWhole (digits : List Char) : Prop :=
  IsRun digits ∧ ∀ rest, digits = '0' :: rest → rest = []

/-- The digits behind a point, and what is written for them. -/
inductive WritesFraction : Option (List Char) → (written : List Char) → Prop
  | none : WritesFraction none []
  | some {digits : List Char} (isRun : IsRun digits) :
      WritesFraction (some digits) ('.' :: digits)

/-- An exponent, and what is written for it. -/
inductive WritesExponent : Option Int → (written : List Char) → Prop
  | none : WritesExponent none []
  | plain {letter : Char} (marks : letter = 'e' ∨ letter = 'E')
      {digits : List Char} (isRun : IsRun digits) :
      WritesExponent (some (runValue digits)) (letter :: digits)
  | plus {letter : Char} (marks : letter = 'e' ∨ letter = 'E')
      {digits : List Char} (isRun : IsRun digits) :
      WritesExponent (some (runValue digits)) (letter :: '+' :: digits)
  | minus {letter : Char} (marks : letter = 'e' ∨ letter = 'E')
      {digits : List Char} (isRun : IsRun digits) :
      WritesExponent (some (-(runValue digits : Int))) (letter :: '-' :: digits)

/-- A number, and what is written for it. -/
inductive WritesNumber : Number → (written : List Char) → Prop
  | positive {whole fractionText exponentText : List Char}
      {fraction : Option (List Char)} {exponent : Option Int}
      (isWhole : IsWhole whole)
      (writesFraction : WritesFraction fraction fractionText)
      (writesExponent : WritesExponent exponent exponentText) :
      WritesNumber ⟨false, whole, fraction, exponent⟩
        (whole ++ (fractionText ++ exponentText))
  | negative {whole fractionText exponentText : List Char}
      {fraction : Option (List Char)} {exponent : Option Int}
      (isWhole : IsWhole whole)
      (writesFraction : WritesFraction fraction fractionText)
      (writesExponent : WritesExponent exponent exponentText) :
      WritesNumber ⟨true, whole, fraction, exponent⟩
        ('-' :: (whole ++ (fractionText ++ exponentText)))

/-- What may follow a value: the end of the text, or a mark that separates or
ends values. -/
inductive Ends : List Char → Prop
  | nil : Ends []
  | comma (rest : List Char) : Ends (',' :: rest)
  | bracket (rest : List Char) : Ends (']' :: rest)
  | brace (rest : List Char) : Ends ('\x7d' :: rest)

/-- A text does not start with a digit. -/
def NoDigit (text : List Char) : Prop :=
  ∀ digit ∈ text.head?, digit.isDigit = false

theorem Ends.noDigit {rest : List Char} (ends : Ends rest) : NoDigit rest := by
  cases ends <;> simp [NoDigit]

theorem digitRun_append {digits rest : List Char} (isRun : IsRun digits)
    (stops : NoDigit rest) : digitRun (digits ++ rest) = .ok (digits, rest) := by
  obtain ⟨nonempty, areDigits⟩ := isRun
  have isDigit :
      (fun letter : Char => '0' ≤ letter && letter ≤ '9') = Char.isDigit := by
    funext letter
    simp only [Char.isDigit, ge_iff_le]
    rfl
  have none : rest.takeWhile Char.isDigit = [] ∧
      rest.dropWhile Char.isDigit = rest := by
    cases rest with
    | nil => exact ⟨rfl, rfl⟩
    | cons letter rest =>
        have noDigit := stops letter rfl
        simp [noDigit]
  rw [digitRun, List.span_eq_takeWhile_dropWhile, isDigit,
    List.takeWhile_append_of_pos areDigits,
    List.dropWhile_append_of_pos areDigits, none.1, none.2, List.append_nil]
  cases digits with
  | nil => contradiction
  | cons digit digits => rfl

theorem wholePart_append {whole rest : List Char} (isWhole : IsWhole whole)
    (stops : NoDigit rest) : wholePart (whole ++ rest) = .ok (whole, rest) := by
  obtain ⟨isRun, zeroAlone⟩ := isWhole
  rw [wholePart, digitRun_append isRun stops]
  simp only [bind, Except.bind]
  split
  case h_1 => exact absurd (zeroAlone _ rfl) (List.cons_ne_nil _ _)
  case h_2 => rfl

section Parts

variable {fraction : Option (List Char)} {exponent : Option Int}
  {fractionText exponentText rest : List Char}

theorem exponentValue_append {digits : List Char} (isRun : IsRun digits)
    (stops : NoDigit rest) :
    exponentValue (digits ++ rest) = .ok (runValue digits, rest) := by
  have read := digitRun_append isRun stops
  obtain ⟨nonempty, areDigits⟩ := isRun
  cases digits with
  | nil => contradiction
  | cons digit digits =>
      have isDigit := areDigits digit (List.mem_cons_self ..)
      rw [List.cons_append] at read ⊢
      rw [exponentValue, read]
      · rfl
      · rintro _ ⟨⟩
        contradiction
      · rintro _ ⟨⟩
        contradiction

theorem exponentPart_append (writes : WritesExponent exponent exponentText)
    (ends : Ends rest) :
    exponentPart (exponentText ++ rest) = .ok (exponent, rest) := by
  cases writes with
  | none => cases ends <;> rfl
  | plain marks isRun =>
      have read := exponentValue_append isRun ends.noDigit
      rcases marks with rfl | rfl <;>
        rw [List.cons_append, exponentPart, read] <;> rfl
  | plus marks isRun =>
      have read := digitRun_append isRun ends.noDigit
      rcases marks with rfl | rfl <;>
        rw [List.cons_append, List.cons_append, exponentPart, exponentValue,
          read] <;> rfl
  | minus marks isRun =>
      have read := digitRun_append isRun ends.noDigit
      rcases marks with rfl | rfl <;>
        rw [List.cons_append, List.cons_append, exponentPart, exponentValue,
          read] <;> rfl

theorem noDigit_exponent (writes : WritesExponent exponent exponentText)
    (ends : Ends rest) : NoDigit (exponentText ++ rest) := by
  cases writes with
  | none => exact ends.noDigit
  | plain marks | plus marks | minus marks =>
      rcases marks with rfl | rfl <;> simp [NoDigit]

theorem fractionPart_append (writes : WritesFraction fraction fractionText)
    (writesExponent : WritesExponent exponent exponentText)
    (ends : Ends rest) :
    fractionPart (fractionText ++ (exponentText ++ rest)) =
      .ok (fraction, exponentText ++ rest) := by
  cases writes with
  | some isRun =>
      rw [List.cons_append, fractionPart,
        digitRun_append isRun (noDigit_exponent writesExponent ends)]
      rfl
  | none =>
      cases writesExponent with
      | none => cases ends <;> rfl
      | plain marks | plus marks | minus marks =>
          rcases marks with rfl | rfl <;> rfl

theorem noDigit_fraction (writes : WritesFraction fraction fractionText)
    (writesExponent : WritesExponent exponent exponentText)
    (ends : Ends rest) :
    NoDigit (fractionText ++ (exponentText ++ rest)) := by
  cases writes with
  | none =>
      rw [List.nil_append]
      exact noDigit_exponent writesExponent ends
  | some => simp [NoDigit]

end Parts

/-- A number is read as itself, up to the mark that follows it. -/
theorem number_append {value : Number} {written rest : List Char}
    (writes : WritesNumber value written) (ends : Ends rest) :
    number (written ++ rest) = .ok (value, rest) := by
  cases writes with
  | @negative whole fractionText exponentText _ _ isWhole fraction exponent =>
      have readWhole :=
        wholePart_append isWhole (noDigit_fraction fraction exponent ends)
      have readFraction := fractionPart_append fraction exponent ends
      have readExponent := exponentPart_append exponent ends
      simp only [number, List.cons_append, List.append_assoc, readWhole, bind,
        Except.bind, readFraction, readExponent]
      rfl
  | @positive whole fractionText exponentText _ _ isWhole fraction exponent =>
      have readWhole :=
        wholePart_append isWhole (noDigit_fraction fraction exponent ends)
      have readFraction := fractionPart_append fraction exponent ends
      have readExponent := exponentPart_append exponent ends
      obtain ⟨⟨nonempty, areDigits⟩, -⟩ := isWhole
      cases whole with
      | nil => contradiction
      | cons digit digits =>
          have isDigit := areDigits digit (List.mem_cons_self ..)
          simp only [List.cons_append] at readWhole
          simp only [number, List.cons_append, List.append_assoc]
          split
          case h_1 unsigned =>
            obtain ⟨rfl, -⟩ := List.cons.inj unsigned
            contradiction
          case h_2 =>
            simp only [readWhole, bind, Except.bind, readFraction, readExponent]
            rfl

end Numbers

section Numerals

theorem eq_zero_of_toDigits {number : Nat} {rest : List Char}
    (leading : Nat.toDigits 10 number = '0' :: rest) : number = 0 := by
  induction number using Nat.strong_induction_on generalizing rest with
  | _ number ih =>
      rcases Nat.lt_or_ge number 10 with small | large
      · rw [Nat.toDigits_of_lt_base small] at leading
        have digit := (List.cons.inj leading).1
        interval_cases number <;> first | rfl | contradiction
      · rw [Nat.toDigits_of_base_le (by decide) large] at leading
        cases front : Nat.toDigits 10 (number / 10) with
        | nil => exact absurd front Nat.toDigits_ne_nil
        | cons first others =>
            rw [front, List.cons_append] at leading
            rw [(List.cons.inj leading).1] at front
            have zero := ih (number / 10) (by omega) front
            omega

theorem isWhole_toDigits (number : Nat) : IsWhole (Nat.toDigits 10 number) := by
  refine ⟨⟨Nat.toDigits_ne_nil, fun _ => isDigit_of_mem_toDigits⟩, ?_⟩
  intro rest leading
  rw [eq_zero_of_toDigits leading, Nat.toDigits_zero] at leading
  exact (List.cons.inj leading).2.symm

theorem runValue_of_isDigit {digit : Char} (isDigit : digit.isDigit) :
    runValue [digit] = digit.toNat - '0'.toNat := by
  have read := digitsFrom?_of_isDigit
    (List.forall_mem_singleton.mpr isDigit) 0
  rw [runValue, digits?, read, Option.getD_some, Nat.ofDigitChars_cons,
    Nat.ofDigitChars_nil, Nat.mul_zero, Nat.zero_add]
  exact List.cons_ne_nil _ _

/-- A significand that stays below `UInt64.size` takes all digits. -/
theorem significandFrom_of_isDigit {digits : List Char}
    (areDigits : ∀ digit ∈ digits, digit.isDigit) {significand : Nat}
    (small : Nat.ofDigitChars 10 digits significand < UInt64.size) :
    significandFrom significand digits =
      (Nat.ofDigitChars 10 digits significand, []) := by
  induction digits generalizing significand with
  | nil => rfl
  | cons digit digits ih =>
      obtain ⟨isDigit, others⟩ := List.forall_mem_cons.mp areDigits
      rw [Nat.ofDigitChars_cons] at small ⊢
      rw [significandFrom, runValue_of_isDigit isDigit,
        Nat.mul_comm significand]
      -- Further digits only make a significand larger.
      have grows := Nat.ofDigitChars_eq_ofDigitChars_zero ▸ small
      have below : 10 * significand + (digit.toNat - '0'.toNat) <
          UInt64.size :=
        (Nat.le_mul_of_pos_left _ (Nat.pow_pos (by decide))).trans_lt
          ((Nat.le_add_right _ _).trans_lt grows)
      simp only [if_pos below, ih others small]

theorem roundToDouble_le (number : Nat) : roundToDouble number ≤ 2 * number := by
  unfold roundToDouble
  simp only [Nat.shiftLeft_eq, Nat.one_mul]
  rcases Nat.eq_zero_or_pos number with rfl | positive
  · rfl
  have unitLe : 2 ^ (number.log2 - 52) ≤ number :=
    (Nat.pow_le_pow_right (by decide) (Nat.sub_le _ _)).trans
      (Nat.log2_self_le positive.ne')
  have belowLe := Nat.div_mul_le_self number (2 ^ (number.log2 - 52))
  split
  · omega
  · rw [Nat.add_one_mul]
    omega

theorem exceedsDouble_zero {significand : Nat} (small : significand < UInt64.size) :
    exceedsDouble significand 0 = false := by
  have limit : 2 * UInt64.size < doubleLimit := by decide +kernel
  have rounded := roundToDouble_le significand
  have one : roundToDouble (Nat.pow 10 0) = 1 := by decide +kernel
  have fits : ¬ doubleLimit ≤ roundToDouble significand := by omega
  rw [exceedsDouble, one, Nat.mul_one, decide_eq_false fits]
  simp

/-- The numeral of a size is read as a number that is the size. -/
theorem finiteNumber_toDigits (size : UInt64) {rest : List Char}
    (ends : Ends rest) :
    ∃ value : Number, value.size? = some size ∧
      finiteNumber (Nat.toDigits 10 size.toNat ++ rest) = .ok (value, rest) := by
  have isWhole := isWhole_toDigits size.toNat
  have writes := WritesNumber.positive isWhole .none .none
  rw [List.append_nil, List.append_nil] at writes
  have read := number_append writes ends
  refine ⟨⟨false, Nat.toDigits 10 size.toNat, none, none⟩,
    readSize?_toDigits size, ?_⟩
  have value : Nat.ofDigitChars 10 (Nat.toDigits 10 size.toNat) 0 =
      size.toNat := Nat.ofDigitChars_toDigits (by decide) (by decide)
  have small : size.toNat < UInt64.size := size.toNat_lt
  have significand := significandFrom_of_isDigit isWhole.1.2
    (value.symm ▸ small)
  rw [value] at significand
  have finite : Number.isFinite
      ⟨false, Nat.toDigits 10 size.toNat, none, none⟩ = true := by
    simp [Number.isFinite, significand, significandFrom,
      exceedsDouble_zero small]
  rw [finiteNumber, read]
  simp only [bind, Except.bind, if_pos finite]
  rfl

end Numerals

end Metastring.Json
