import Metastring.Proofs.Encoding
import Metastring.Proofs.Numerals
import Metastring.Settings

/-!
# How the maximum is read

The text of a maximum is a numeral, with blanks around it allowed.  The numeral
is one or more digits, with any number of leading zeros and perhaps behind a plus
sign, and it denotes a positive size.  All other texts are passed over, and so
are byte strings that are not the encoding of a text.
-/

namespace Metastring

section Numerals

theorem isDigit_of_hexValue? {letter : Char} {digit : Nat}
    (value : hexValue? letter = some digit) (small : digit < 10) :
    letter.isDigit := by
  rw [Char.isDigit_iff_toNat]
  unfold hexValue? at value
  split at value
  case isTrue between => exact between
  case isFalse =>
    -- The other digits of base sixteen denote ten and more.
    split at value
    case isTrue between =>
      obtain rfl := Option.some.inj value
      have atLeast : 'a'.toNat ≤ letter.toNat := between.1
      have first : 'a'.toNat = 97 := rfl
      omega
    case isFalse =>
      split at value
      case isTrue between =>
        obtain rfl := Option.some.inj value
        have atLeast : 'A'.toNat ≤ letter.toNat := between.1
        have first : 'A'.toNat = 65 := rfl
        omega
      case isFalse => contradiction

theorem isDigit_of_digitsFrom? {letters : List Char} {value number : Nat}
    (read : digitsFrom? 10 value letters = some number) :
    ∀ letter ∈ letters, letter.isDigit := by
  induction letters generalizing value with
  | nil => exact nofun
  | cons first rest ih =>
      rw [digitsFrom?] at read
      cases isValue : hexValue? first with
      | none => simp [isValue] at read
      | some digit =>
          simp only [isValue] at read
          split at read
          case isFalse => contradiction
          case isTrue small =>
            exact List.forall_mem_cons.mpr
              ⟨isDigit_of_hexValue? isValue small, ih read⟩

theorem digits?_eq_some_iff (letters : List Char) (number : Nat) :
    digits? 10 letters = some number ↔
      letters ≠ [] ∧ (∀ letter ∈ letters, letter.isDigit) ∧
        Nat.ofDigitChars 10 letters 0 = number := by
  cases letters with
  | nil => simp [digits?]
  | cons first rest =>
      have isRun : digits? 10 (first :: rest) =
          digitsFrom? 10 0 (first :: rest) := rfl
      rw [isRun]
      constructor
      · intro read
        have areDigits := isDigit_of_digitsFrom? read
        rw [digitsFrom?_of_isDigit areDigits] at read
        exact ⟨nofun, areDigits, Option.some.inj read⟩
      · rintro ⟨-, areDigits, rfl⟩
        exact digitsFrom?_of_isDigit areDigits 0

theorem size?_eq_some_iff (number : Nat) (size : UInt64) :
    size? number = some size ↔ number = size.toNat := by
  unfold size?
  constructor
  · intro isSize
    split at isSize
    case isFalse => contradiction
    case isTrue inRange =>
      obtain rfl := Option.some.inj isSize
      exact (UInt64.toNat_ofNat_of_lt inRange).symm
  · rintro rfl
    rw [if_pos size.toNat_lt, UInt64.ofNat_toNat]

/-- Letters are the numeral of a size: an optional plus sign and one or more
digits, of which any number may be leading zeros. -/
def SpellsSize (letters : List Char) (size : UInt64) : Prop :=
  ∃ sign digits, letters = sign ++ digits ∧ (sign = [] ∨ sign = ['+']) ∧
    digits ≠ [] ∧ (∀ digit ∈ digits, digit.isDigit) ∧
      Nat.ofDigitChars 10 digits 0 = size.toNat

theorem readSize?_eq_some_iff (letters : List Char) (size : UInt64) :
    readSize? letters = some size ↔ SpellsSize letters size := by
  have unsigned (digits : List Char) :
      digits? 10 digits >>= size? = some size ↔
        digits ≠ [] ∧ (∀ digit ∈ digits, digit.isDigit) ∧
          Nat.ofDigitChars 10 digits 0 = size.toNat := by
    simp only [Option.bind_eq_bind, Option.bind_eq_some_iff,
      digits?_eq_some_iff, size?_eq_some_iff]
    constructor
    · rintro ⟨number, ⟨nonempty, areDigits, value⟩, isSize⟩
      exact ⟨nonempty, areDigits, value.trans isSize⟩
    · rintro ⟨nonempty, areDigits, value⟩
      exact ⟨_, ⟨nonempty, areDigits, rfl⟩, value⟩
  unfold readSize?
  split
  case h_1 digits =>
    rw [unsigned]
    constructor
    · exact fun isNumeral => ⟨['+'], digits, rfl, .inr rfl, isNumeral⟩
    · rintro ⟨sign, digits', split, rfl | rfl, nonempty, areDigits, value⟩
      · -- A plus sign is no digit.
        obtain rfl : '+' :: digits = digits' := split
        exact absurd (areDigits '+' List.mem_cons_self) (by decide)
      · obtain rfl := (List.cons.inj split).2
        exact ⟨nonempty, areDigits, value⟩
  case h_2 noSign =>
    rw [unsigned]
    constructor
    · exact fun isNumeral => ⟨[], letters, rfl, .inl rfl, isNumeral⟩
    · rintro ⟨sign, digits, rfl, rfl | rfl, isNumeral⟩
      · exact isNumeral
      · exact absurd rfl (noSign digits)

end Numerals

section Blanks

/-- The letters are blanks. -/
def AreBlank (letters : List Char) : Prop :=
  ∀ letter ∈ letters, isBlank letter

theorem dropWhile_blank_append {before : List Char} (blank : AreBlank before)
    (letters : List Char) :
    (before ++ letters).dropWhile isBlank = letters.dropWhile isBlank :=
  List.dropWhile_append_of_pos blank

/-- What is left behind the blanks, if the letters do not begin with one. -/
theorem dropWhile_blank_of_head {letters : List Char}
    (head : ∀ letter ∈ letters.head?, isBlank letter = false) :
    letters.dropWhile isBlank = letters := by
  cases letters with
  | nil => rfl
  | cons letter letters =>
      rw [List.dropWhile_cons_of_neg (by simp [head letter rfl])]

theorem trimBlanks_append {before core after : List Char}
    (blankBefore : AreBlank before) (blankAfter : AreBlank after)
    (head : ∀ letter ∈ core.head?, isBlank letter = false)
    (last : ∀ letter ∈ core.getLast?, isBlank letter = false)
    (nonempty : core ≠ []) :
    trimBlanks (before ++ core ++ after) = core := by
  have starts : ∀ letter ∈ (core ++ after).head?, isBlank letter = false := by
    cases core with
    | nil => exact absurd rfl nonempty
    | cons letter core => exact head
  have ends : ∀ letter ∈ core.reverse.head?, isBlank letter = false := by
    rwa [List.head?_reverse]
  have blankReversed : AreBlank after.reverse := fun letter isLetter =>
    blankAfter letter (List.mem_reverse.mp isLetter)
  rw [trimBlanks, List.append_assoc, dropWhile_blank_append blankBefore,
    dropWhile_blank_of_head starts, List.reverse_append,
    dropWhile_blank_append blankReversed, dropWhile_blank_of_head ends,
    List.reverse_reverse]

theorem exists_trimBlanks (letters : List Char) :
    ∃ before after, letters = before ++ trimBlanks letters ++ after ∧
      AreBlank before ∧ AreBlank after := by
  have blank (letters : List Char) : AreBlank (letters.takeWhile isBlank) :=
    fun _ isLetter => List.mem_takeWhile_imp isLetter
  let behind := letters.dropWhile isBlank
  refine ⟨letters.takeWhile isBlank, (behind.reverse.takeWhile isBlank).reverse,
    ?_, blank _, fun letter isLetter =>
      blank _ letter (List.mem_reverse.mp isLetter)⟩
  rw [trimBlanks, List.append_assoc, ← List.reverse_append,
    List.takeWhile_append_dropWhile, List.reverse_reverse,
    List.takeWhile_append_dropWhile]

end Blanks

section Maxima

/-- A text is the numeral of a positive size between blanks. -/
def SpellsMaximum (text : String) (maximum : UInt64) : Prop :=
  0 < maximum ∧ ∃ before numeral after,
    text.toList = before ++ numeral ++ after ∧ AreBlank before ∧
      AreBlank after ∧ SpellsSize numeral maximum

theorem isBlank_of_isDigit {letter : Char} (isDigit : letter.isDigit) :
    isBlank letter = false := by
  obtain ⟨atLeast, atMost⟩ := Char.isDigit_iff_toNat.mp isDigit
  have least : '0'.toNat = 48 := rfl
  have greatest : '9'.toNat = 57 := rfl
  rw [least] at atLeast
  rw [greatest] at atMost
  rw [← Char.ofNat_toNat letter]
  interval_cases letter.toNat <;> decide

theorem SpellsSize.nonempty {numeral : List Char} {size : UInt64}
    (spells : SpellsSize numeral size) : numeral ≠ [] := by
  obtain ⟨sign, digits, rfl, -, nonempty, -⟩ := spells
  exact List.append_ne_nil_of_right_ne_nil sign nonempty

theorem SpellsSize.not_blank {numeral : List Char} {size : UInt64}
    (spells : SpellsSize numeral size) :
    ∀ letter ∈ numeral, isBlank letter = false := by
  obtain ⟨sign, digits, rfl, isSign, -, areDigits, -⟩ := spells
  intro letter isLetter
  rcases List.mem_append.mp isLetter with inSign | inDigits
  · rcases isSign with rfl | rfl
    · contradiction
    · obtain rfl := List.mem_singleton.mp inSign
      decide
  · exact isBlank_of_isDigit (areDigits letter inDigits)

theorem Settings.readMaximum?_eq_some_iff (text : String) (maximum : UInt64) :
    readMaximum? text = some maximum ↔ SpellsMaximum text maximum := by
  have positive : decide (maximum ≠ 0) = true ↔ 0 < maximum := by
    rw [decide_eq_true_eq, UInt64.pos_iff_ne_zero]
  rw [readMaximum?, Option.filter_eq_some_iff, readSize?_eq_some_iff, positive,
    and_comm]
  refine and_congr_right fun _ => ⟨fun spells => ?_, ?_⟩
  · obtain ⟨before, after, split, blankBefore, blankAfter⟩ :=
      exists_trimBlanks text.toList
    exact ⟨before, _, after, split, blankBefore, blankAfter, spells⟩
  · rintro ⟨before, numeral, after, split, blankBefore, blankAfter, spells⟩
    have notBlank := spells.not_blank
    rw [split, trimBlanks_append blankBefore blankAfter
      (fun letter isHead => notBlank letter (List.mem_of_mem_head? isHead))
      (fun letter isLast => notBlank letter (List.mem_of_mem_getLast? isLast))
      spells.nonempty]
    exact spells

theorem Environment.text?_eq_some_iff (environment : Environment)
    (subject : Variable) (text : String) :
    environment.text? subject = some text ↔
      environment.value subject = some (Utf8.encode text) := by
  unfold text?
  simp only [Option.bind_eq_bind, Option.bind_eq_some_iff]
  constructor
  · rintro ⟨bytes, present, decoded⟩
    cases isText : Utf8.decode bytes with
    | error fault => simp [isText, Except.toOption] at decoded
    | ok text' =>
        rw [isText] at decoded
        obtain rfl := Option.some.inj decoded
        rw [present, ← (Utf8.decode_eq_ok_iff bytes text').mp isText]
  · intro present
    refine ⟨_, present, ?_⟩
    rw [(Utf8.decode_eq_ok_iff _ text).mpr rfl]
    rfl

end Maxima

end Metastring
