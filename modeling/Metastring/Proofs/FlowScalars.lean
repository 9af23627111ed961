import Mathlib.Data.List.TakeWhile
import Mathlib.Tactic.FinCases
import Metastring.Json.Writer
import Metastring.Yaml.Scalar

/-!
# Scalars in flow style

Text of printable ASCII letters that is written in quotes, with quotes and
backslashes escaped, is read as this text by the rules for double-quoted
scalars, however many spaces it holds.  Letters and digits in front of a
separator of a flow collection are read as a plain scalar.
-/

namespace Metastring.Yaml

section Positions

theorem byteSize_append (first second : List Char) :
    byteSize (first ++ second) = byteSize first + byteSize second := by
  induction first with
  | nil => simp [byteSize]
  | cons letter first ih =>
      rw [List.cons_append, byteSize, byteSize, ih]
      omega

@[simp]
theorem Position.forward_nil (position : Position) :
    position.forward [] = position :=
  rfl

@[simp]
theorem Position.forward_forward (position : Position)
    (first second : List Char) :
    (position.forward first).forward second =
      position.forward (first ++ second) := by
  simp only [forward, byteSize_append, List.length_append]
  congr 1 <;> omega

theorem Position.column_le_forward (position : Position)
    (letters : List Char) :
    position.column ≤ (position.forward letters).column :=
  Nat.le_add_right _ _

/-- Behind a part of a line the rest of it follows. -/
theorem Cursor.skip_append (position : Position) (letters rest : List Char) :
    Cursor.skip ⟨position, letters ++ rest⟩ letters.length =
      ⟨position.forward letters, rest⟩ := by
  simp only [skip, List.take_left, List.drop_left]

end Positions

section Letters

/-- The letters of ASCII that can be printed. -/
def isPrintable (letter : Char) : Bool :=
  ' ' ≤ letter && letter ≤ '~'

theorem ne_of_isPrintable {letter other : Char}
    (printable : isPrintable letter) (unprintable : isPrintable other = false) :
    letter ≠ other := by
  rintro rfl
  simp [unprintable] at printable

theorem isBreak_of_isPrintable {letter : Char}
    (printable : isPrintable letter) : isBreak letter = false := by
  simp (disch := decide) [isBreak, ne_of_isPrintable printable]

theorem isSpace_of_isPrintable {letter : Char}
    (printable : isPrintable letter) (notSpace : letter ≠ ' ') :
    isSpace letter = false := by
  simp (disch := decide) [isSpace, notSpace, ne_of_isPrintable printable]

theorem isAllowed_of_isPrintable {letter : Char}
    (printable : isPrintable letter) : isAllowed letter := by
  rw [isPrintable] at printable
  simp [isAllowed, printable]

theorem atGap_cons_of_isPrintable {letter : Char}
    (printable : isPrintable letter) (notSpace : letter ≠ ' ')
    (rest : List Char) : atGap (letter :: rest) = false := by
  simp [atGap, isSpace_of_isPrintable printable notSpace,
    isBreak_of_isPrintable printable]

end Letters

section Heads

theorem exists_of_atOneOf {letters text : List Char}
    (starts : atOneOf letters text) :
    ∃ letter ∈ letters, ∃ rest, text = letter :: rest := by
  cases text with
  | nil => simp [atOneOf] at starts
  | cons letter rest => exact ⟨letter, by simpa [atOneOf] using starts, rest, rfl⟩

theorem atDocumentMarker_cons {letter : Char} (notHyphen : letter ≠ '-')
    (notDot : letter ≠ '.') (rest : List Char) :
    atDocumentMarker (letter :: rest) = false := by
  unfold atDocumentMarker
  split <;> simp_all

end Heads

section Quoted

/-- What escapes are made of in printable text: a backslash in front of a quote
or of another backslash, and nothing in front of other letters. -/
theorem escapedLetter_cases {letter : Char} (printable : isPrintable letter) :
    Json.escapedLetter letter = ['\\', letter] ∧
        (letter = '"' ∨ letter = '\\') ∨
      Json.escapedLetter letter = [letter] ∧ letter ≠ '"' ∧ letter ≠ '\\' := by
  by_cases isQuote : letter = '"'
  · subst isQuote
    exact .inl ⟨rfl, .inl rfl⟩
  by_cases isBackslash : letter = '\\'
  · subst isBackslash
    exact .inl ⟨rfl, .inr rfl⟩
  have notControl : ¬ letter < ' ' := by
    simp only [isPrintable, Bool.and_eq_true, decide_eq_true_eq] at printable
    exact Char.not_lt.mpr printable.1
  refine .inr ⟨?_, isQuote, isBackslash⟩
  unfold Json.escapedLetter
  split <;> simp_all

/-- The letters of a text as they are written between quotes. -/
def escaped (content : List Char) : List Char :=
  content.flatMap Json.escapedLetter

/-- A text in quotes. -/
def quotedText (content : List Char) : List Char :=
  '"' :: (escaped content ++ ['"'])

theorem doubleQuotedWord_cons {letter : Char} (printable : isPrintable letter)
    (notSpace : letter ≠ ' ') {position : Position} {rest : List Char}
    {word : QuotedWord}
    (reads : doubleQuotedWord (position.forward (Json.escapedLetter letter))
      rest = some word) :
    doubleQuotedWord position (Json.escapedLetter letter ++ rest) =
      some (word.prepend letter) := by
  rcases escapedLetter_cases printable with
    ⟨written, rfl | rfl⟩ | ⟨written, notQuote, notBackslash⟩
  · rw [written] at reads ⊢
    simp [doubleQuotedWord, isBreak, shortEscape?, reads]
  · rw [written] at reads ⊢
    simp [doubleQuotedWord, isBreak, shortEscape?, reads]
  · rw [written] at reads ⊢
    simp [doubleQuotedWord, notQuote, notBackslash, reads,
      isSpace_of_isPrintable printable notSpace,
      isBreak_of_isPrintable printable]

theorem doubleQuotedWord_of_stops (position : Position) {rest : List Char}
    (stops : atOneOf ['"', ' '] rest) :
    doubleQuotedWord position rest = some ⟨[], false, ⟨position, rest⟩⟩ := by
  obtain ⟨letter, isStop, rest, rfl⟩ := exists_of_atOneOf stops
  fin_cases isStop <;> simp [doubleQuotedWord, isSpace]

/-- A word ends at a space or at the closing quote. -/
theorem doubleQuotedWord_append {word : List Char}
    (printable : ∀ letter ∈ word, isPrintable letter)
    (unspaced : ' ' ∉ word) (position : Position) {rest : List Char}
    (stops : atOneOf ['"', ' '] rest) :
    doubleQuotedWord position (escaped word ++ rest) =
      some ⟨word, false, ⟨position.forward (escaped word), rest⟩⟩ := by
  induction word generalizing position with
  | nil => exact doubleQuotedWord_of_stops position stops
  | cons letter word ih =>
      obtain ⟨isPrintable, others⟩ := List.forall_mem_cons.mp printable
      obtain ⟨differs, unspaced'⟩ := not_or.mp (mt List.mem_cons.mpr unspaced)
      have reads := ih others unspaced'
        (position.forward (Json.escapedLetter letter))
      rw [escaped, List.flatMap_cons, List.append_assoc]
      refine (doubleQuotedWord_cons isPrintable (Ne.symm differs) reads).trans ?_
      rw [Position.forward_forward]
      rfl

/-- A gap of spaces ends at the first letter that is none. -/
theorem gapFrom_append {spaces : List Char}
    (areSpaces : ∀ letter ∈ spaces, letter = ' ') (before : List Char)
    (position : Position) {rest : List Char} (solid : atGap rest = false) :
    gapFrom 0 (.spaces before) position (spaces ++ rest) =
      some (.spaces (before ++ spaces), ⟨position.forward spaces, rest⟩) := by
  induction spaces generalizing before position with
  | nil =>
      cases rest with
      | nil => simp [atGap] at solid
      | cons letter rest =>
          have notSpace : isSpace letter = false := by
            simp_all [atGap]
          have notBreak : isBreak letter = false := by
            simp_all [atGap]
          have notReturn : letter ≠ '\r' := by
            rintro rfl
            simp [isBreak] at notBreak
          simp [gapFrom, notSpace, notBreak, notReturn]
  | cons space spaces ih =>
      obtain ⟨rfl, others⟩ := List.forall_mem_cons.mp areSpaces
      rw [List.cons_append, gapFrom]
      · simp [isSpace, Gap.hasBreak, Gap.addSpace, ih others]
      · intro rest' isReturn
        simp at isReturn

/-- A text is one word, or a word in front of spaces and of a text that starts
with another word. -/
theorem exists_word (content : List Char) :
    ' ' ∉ content ∨ ∃ word spaces more,
      content = word ++ ' ' :: (spaces ++ more) ∧ ' ' ∉ word ∧
        (∀ letter ∈ spaces, letter = ' ') ∧ more.head? ≠ some ' ' := by
  by_cases isSpaced : ' ' ∈ content
  case neg => exact .inl isSpaced
  obtain ⟨word, others, rfl, unspaced⟩ := List.eq_append_cons_of_mem isSpaced
  refine .inr ⟨word, others.takeWhile (· = ' '), others.dropWhile (· = ' '), ?_,
    unspaced, fun letter isSpace => ?_, ?_⟩
  · rw [List.takeWhile_append_dropWhile]
  · simpa using List.mem_takeWhile_imp isSpace
  · intro isSpace
    have notSpace := List.head?_dropWhile_not (· = ' ') others
    rw [isSpace] at notSpace
    simp at notSpace

theorem escaped_append (first second : List Char) :
    escaped (first ++ second) = escaped first ++ escaped second :=
  List.flatMap_append

theorem length_le_escaped {content : List Char}
    (printable : ∀ letter ∈ content, isPrintable letter) :
    content.length ≤ (escaped content).length := by
  induction content with
  | nil => exact Nat.le_refl 0
  | cons letter content ih =>
      obtain ⟨isPrintable, others⟩ := List.forall_mem_cons.mp printable
      have shorter := ih others
      rw [escaped] at shorter
      rw [escaped, List.flatMap_cons, List.length_append, List.length_cons]
      rcases escapedLetter_cases isPrintable with ⟨written, -⟩ | ⟨written, -⟩
      · rw [written, List.length_cons]
        omega
      · rw [written, List.length_singleton]
        omega

theorem escaped_of_spaces {spaces : List Char}
    (areSpaces : ∀ letter ∈ spaces, letter = ' ') : escaped spaces = spaces := by
  induction spaces with
  | nil => rfl
  | cons space spaces ih =>
      obtain ⟨rfl, others⟩ := List.forall_mem_cons.mp areSpaces
      rw [escaped, List.flatMap_cons]
      exact congrArg (' ' :: ·) (ih others)

theorem atGap_escaped {content : List Char}
    (printable : ∀ letter ∈ content, isPrintable letter)
    (notSpace : content.head? ≠ some ' ') (rest : List Char) :
    atGap (escaped content ++ '"' :: rest) = false := by
  cases content with
  | nil => rfl
  | cons letter content =>
      have isPrintable := printable letter List.mem_cons_self
      have notSpace' : letter ≠ ' ' := by
        simpa using notSpace
      rw [escaped, List.flatMap_cons]
      rcases escapedLetter_cases isPrintable with ⟨written, -⟩ | ⟨written, -⟩
      · rw [written]
        rfl
      · rw [written]
        exact atGap_cons_of_isPrintable isPrintable notSpace' _

/-- A word at the end of a text is followed by the closing quote. -/
theorem quotedFrom_last {word : List Char}
    (printable : ∀ letter ∈ word, isPrintable letter) (unspaced : ' ' ∉ word)
    (bound : Nat) (before : List Char) {position : Position}
    (inLine : 0 < position.column) (rest : List Char) :
    quotedFrom .double (bound + 1) before
        ⟨position, escaped word ++ '"' :: rest⟩ =
      some (before ++ word,
        ⟨position.forward (escaped word ++ ['"']), rest⟩) := by
  have notMargin : position.column ≠ 0 := by omega
  have stops : atOneOf ['"', ' '] ('"' :: rest) := rfl
  have reads := doubleQuotedWord_append printable unspaced position stops
  have atQuote : atOneOf ['"'] ('"' :: rest) := rfl
  have behind := Cursor.skip_append (position.forward (escaped word)) ['"'] rest
  rw [Position.forward_forward] at behind
  simpa [quotedFrom, notMargin, Quote.word, reads, Quote.letter, atQuote]
    using behind

/-- A word in front of spaces is followed by another one. -/
theorem quotedFrom_further {word spaces : List Char}
    (printable : ∀ letter ∈ word, isPrintable letter) (unspaced : ' ' ∉ word)
    (areSpaces : ∀ letter ∈ spaces, letter = ' ') (bound : Nat)
    (before : List Char) {position : Position} (inLine : 0 < position.column)
    {rest : List Char} (solid : atGap rest = false) :
    quotedFrom .double (bound + 1) before
        ⟨position, escaped word ++ (' ' :: spaces) ++ rest⟩ =
      quotedFrom .double bound (before ++ word ++ ' ' :: spaces)
        ⟨position.forward (escaped word ++ ' ' :: spaces), rest⟩ := by
  have notMargin : position.column ≠ 0 := by omega
  have stops : atOneOf ['"', ' '] (' ' :: (spaces ++ rest)) := rfl
  have reads := doubleQuotedWord_append printable unspaced position stops
  have notQuote : atOneOf ['"'] (' ' :: (spaces ++ rest)) = false := rfl
  have areSpaces' : ∀ letter ∈ ' ' :: spaces, letter = ' ' := by
    simpa using areSpaces
  have passes := gapFrom_append areSpaces' []
    (position.forward (escaped word)) solid
  rw [Position.forward_forward, List.cons_append] at passes
  rw [List.append_assoc, List.cons_append]
  simp [quotedFrom, notMargin, Quote.word, reads, Quote.letter, notQuote,
    passes, Gap.content]

/-- Between its quotes a text is read word by word.  Inside a line there is no
document marker. -/
theorem quotedFrom_append {content : List Char}
    (printable : ∀ letter ∈ content, isPrintable letter) {bound : Nat}
    (enough : content.length < bound) (before : List Char)
    {position : Position} (inLine : 0 < position.column) (rest : List Char) :
    quotedFrom .double bound before
        ⟨position, escaped content ++ '"' :: rest⟩ =
      some (before ++ content,
        ⟨position.forward (escaped content ++ ['"']), rest⟩) := by
  -- Each round passes over a word and the spaces behind it.
  induction bound generalizing content before position with
  | zero => omega
  | succ bound ih =>
      rcases exists_word content with
        unspaced | ⟨word, spaces, more, rfl, unspaced, areSpaces, notSpace⟩
      · exact quotedFrom_last printable unspaced bound before inLine rest
      · have printableWord (letter : Char) (isMember : letter ∈ word) :
            isPrintable letter :=
          printable letter (List.mem_append_left _ isMember)
        have printableMore (letter : Char) (isMember : letter ∈ more) :
            isPrintable letter :=
          printable letter (by simp [isMember])
        have written : escaped (word ++ ' ' :: (spaces ++ more)) =
            escaped word ++ (' ' :: spaces) ++ escaped more := by
          have spaced : escaped (' ' :: spaces) = ' ' :: spaces :=
            escaped_of_spaces (by simpa using areSpaces)
          rw [← List.cons_append, escaped_append, escaped_append, spaced,
            List.append_assoc]
        have shorter : more.length < bound := by
          simp only [List.length_append, List.length_cons] at enough
          omega
        have inLine' := Nat.lt_of_lt_of_le inLine
          (position.column_le_forward (escaped word ++ ' ' :: spaces))
        rw [written, List.append_assoc, quotedFrom_further printableWord unspaced
          areSpaces bound before inLine (atGap_escaped printableMore notSpace
            rest), ih printableMore shorter _ inLine', Position.forward_forward]
        simp only [List.append_assoc, List.cons_append]

/-- A quoted text is read as the text. -/
theorem quotedScalar_append {content : List Char}
    (printable : ∀ letter ∈ content, isPrintable letter) (position : Position)
    (rest : List Char) :
    quotedScalar .double ⟨position, quotedText content ++ rest⟩ =
      some (content, ⟨position.forward (quotedText content), rest⟩) := by
  have written : quotedText content ++ rest =
      ['"'] ++ (escaped content ++ '"' :: rest) := by
    simp [quotedText]
  have enough : content.length < (quotedText content ++ rest).length + 1 := by
    have least := length_le_escaped printable
    simp only [quotedText, List.length_append, List.length_cons]
    omega
  have opened := Cursor.skip_append position ['"']
    (escaped content ++ '"' :: rest)
  rw [quotedScalar, written]
  rw [written] at enough
  refine (congrArg _ opened).trans ?_
  rw [quotedFrom_append printable enough _ (Nat.zero_lt_succ _),
    Position.forward_forward]
  rfl

end Quoted

section Plain

theorem ne_of_isAlphanum {letter other : Char} (isAlphanum : letter.isAlphanum)
    (otherIsNot : other.isAlphanum = false) : letter ≠ other := by
  rintro rfl
  simp [otherIsNot] at isAlphanum

/-- In a flow collection a word ends at a separator. -/
theorem plainWord_append {word : List Char}
    (areAlphanum : ∀ letter ∈ word, letter.isAlphanum) {rest : List Char}
    (stops : atOneOf [',', ']', '\x7d'] rest) :
    plainWord true (word ++ rest) = some (word, rest) := by
  induction word with
  | nil =>
      obtain ⟨separator, isSeparator, rest, rfl⟩ := exists_of_atOneOf stops
      fin_cases isSeparator <;> simp [plainWord, isSpace, isBreak]
  | cons letter word ih =>
      obtain ⟨isAlphanum, others⟩ := List.forall_mem_cons.mp areAlphanum
      simp (disch := decide) [plainWord, ih others, isSpace, isBreak,
        ne_of_isAlphanum isAlphanum]

theorem plainScalar_append {word : List Char} (nonempty : word ≠ [])
    (areAlphanum : ∀ letter ∈ word, letter.isAlphanum) (indent : Nat)
    (position : Position) {rest : List Char}
    (stops : atOneOf [',', ']', '\x7d'] rest) :
    plainScalar true indent ⟨position, word ++ rest⟩ =
      some ⟨word, .spaces [], ⟨position.forward word, rest⟩⟩ := by
  have reads := plainWord_append areAlphanum stops
  obtain ⟨letter, word, rfl⟩ := List.exists_cons_of_ne_nil nonempty
  have isAlphanum := areAlphanum letter List.mem_cons_self
  have notMarker : atDocumentMarker (letter :: word ++ rest) = false :=
    atDocumentMarker_cons (ne_of_isAlphanum isAlphanum rfl)
      (ne_of_isAlphanum isAlphanum rfl) _
  have notComment : atOneOf ['#'] (letter :: word ++ rest) = false := by
    simp (disch := decide) [atOneOf, ne_of_isAlphanum isAlphanum]
  have notGap : atGap rest = false := by
    obtain ⟨separator, isSeparator, rest, rfl⟩ := exists_of_atOneOf stops
    fin_cases isSeparator <;> rfl
  rw [List.cons_append] at reads notMarker notComment
  simp [plainScalar, plainFrom, notMarker, notComment, reads, nonempty, notGap,
    Gap.content]

end Plain

end Metastring.Yaml
