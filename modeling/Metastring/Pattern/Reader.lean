import Metastring.Alphabet
import Metastring.Pattern.Class
import Metastring.Pattern.Expression
import Metastring.Pattern.Size
import Metastring.Pattern.Nesting

/-!
# Reading patterns

A pattern is read from left to right.  Groups may be nested, so the parts
around the group that is being read are kept with the flags that hold there:
flags that change within a group hold to its end.

Faults in the form of the text end the reading.  Parts that are well-formed but
denote nothing are only noted, and the first of them is the fault of a text
that is well-formed as a whole.
-/

namespace Metastring.Pattern

/-! ## Flags -/

/-- The flag that a letter stands for, turned on or off. -/
def Flags.set? (flags : Flags) (isOn : Bool) : Char → Option Flags
  | 'i' => some { flags with ignoresCase := isOn }
  | 'm' => some { flags with isMultiline := isOn }
  | 's' => some { flags with dotIsAll := isOn }
  | 'R' => some { flags with endsLinesAtReturn := isOn }
  | 'x' => some { flags with ignoresBlanks := isOn }
  | 'u' => some { flags with isUnicode := isOn }
  | 'U' => some { flags with prefersShort := isOn }
  | _ => none

/-- Read flags up to the colon or the parenthesis behind them; `seen` are the
letters and hyphens so far, last one first, each with its place. -/
def readFlagsFrom (flags : Flags) (isOn : Bool) (seen : List (Char × Span)) :
    List Char → Attempt (Flags × List Char)
  | [] => faultAt .openFlags (.inFront [])
  | letter :: rest =>
    let span : Span := .ofFirst (letter :: rest)
    if letter = ':' || letter = ')' then
      match seen with
      | ('-', span) :: _ => faultAt .danglingNegation span
      | _ => .ok (flags, letter :: rest)
    else
      let set? :=
        if letter = '-' then some (flags, false)
        else (flags.set? isOn letter).map fun flags => (flags, isOn)
      match set?, seen.lookup letter with
      | none, _ => faultAt .unknownFlag span
      | some _, some earlier =>
        let cause :=
          if letter = '-' then Cause.repeatedNegation else .repeatedFlag
        .error ⟨cause, [span, earlier]⟩
      | some (flags, isOn), none =>
        readFlagsFrom flags isOn ((letter, span) :: seen) rest

/-! ## Counts -/

/-- The limits of a repetition, and whether it prefers short texts. -/
structure Limits where
  least : Nat
  most : Option Nat
  prefersShort : Bool := false
deriving DecidableEq

/-- Read a number between blanks. -/
def readNumber (flags : Flags) (text : List Char) : Attempt Nat × List Char :=
  let text := text.dropWhile isBlank
  let (letters, rest) := flags.takeWhile Letters.digits.has text
  let span : Span := .between text rest
  let number := match digits? 10 letters with
    | none => faultAt .missingCount span
    | some number =>
      if number < UInt32.size then .ok number else faultAt .largeNumber span
  (number, rest.dropWhile isBlank)

/-- Read the limits of a repetition up to the brace behind them; `start` is the
text from the brace in front of them on. -/
def readLimits (flags : Flags) (start : List Char) :
    Attempt (Limits × List Char) := do
  let unclosed : Attempt (Limits × List Char) :=
    faultAt .openCount (.between start [])
  match flags.skip (start.drop 1) with
  | [] => unclosed
  | text =>
    let (least, rest) := readNumber flags text
    match rest with
    | [] => unclosed
    | ',' :: rest =>
      match flags.skip rest with
      | [] => unclosed
      | '\x7d' :: rest => return ({ least := ← least, most := none }, '\x7d' :: rest)
      | rest => do
        let least ← least
        let (most, rest) := readNumber flags rest
        return ({ least, most := some (← most) }, rest)
    | rest => do
      let number ← least
      return ({ least := number, most := some number }, rest)

/-- Read the question mark that turns round whether short texts are
preferred. -/
def readPreference (flags : Flags) : List Char → Bool × List Char
  | '?' :: rest => (!flags.prefersShort, rest)
  | rest => (flags.prefersShort, rest)

/-- Read the limits of a repetition from their brace to the end. -/
def readCount (flags : Flags) (start : List Char) :
    Attempt (Limits × List Char) := do
  let (limits, rest) ← readLimits flags start
  match rest with
  | '\x7d' :: rest =>
    let (prefersShort, rest) := readPreference flags (flags.skip rest)
    if limits.most.any (· < limits.least) then
      faultAt .emptyCount (.between start rest)
    else return ({ limits with prefersShort }, rest)
  | rest => faultAt .openCount (.between start rest)

/-! ## Groups -/

/-- A part of a pattern: what it means, where it is written, and what lies
inside it. -/
structure Part where
  expression : Expression
  span : Span
  nesting : Nesting := .none
deriving Inhabited

/-- A part as one that lies around its own parts. -/
def Part.nested (part : Part) : Part :=
  { part with nesting := .around part.span part.nesting }

/-- A part that can be repeated, or a change of flags, which cannot. -/
inductive Term where
  | part (part : Part)
  | flags
deriving Inhabited

def Term.expression? : Term → Option Expression
  | .part content => some content.expression
  | .flags => none

def Term.nesting : Term → Nesting
  | .part content => content.nesting
  | .flags => .none

/-- Terms one after the other, as a part. -/
def Part.ofTerms (span : Span) (terms : List Term) : Part :=
  let part : Part := {
    expression := .ofSequence (terms.filterMap Term.expression?)
    span
    nesting := .join (terms.map Term.nesting) }
  if 1 < terms.length then part.nested else part

/-- Any of several parts, as a part. -/
def Part.ofChoices (span : Span) (choices : List Part) : Part :=
  let part : Part := {
    expression := .ofChoices (choices.map Part.expression)
    span
    nesting := .join (choices.map Part.nesting) }
  if 1 < choices.length then part.nested else part

/-- The alternatives of a group, last one first. -/
structure Alternatives where
  /-- The text from the first alternative on. -/
  start : List Char
  /-- The text from the last alternative on. -/
  begun : List Char := start
  finished : List Part := []
  /-- The terms of the last alternative, last one first. -/
  terms : List Term := []
deriving Inhabited

namespace Alternatives

def add (term : Term) (alternatives : Alternatives) : Alternatives :=
  { alternatives with terms := term :: alternatives.terms }

/-- Begin a new alternative, where the bar comes at `bar`. -/
def next (bar : List Char) (alternatives : Alternatives) : Alternatives :=
  { alternatives with
    begun := bar.drop 1
    finished :=
      .ofTerms (.between alternatives.begun bar) alternatives.terms.reverse ::
        alternatives.finished
    terms := [] }

/-- The alternatives in front of the rest of the text, as a part. -/
def part (rest : List Char) (alternatives : Alternatives) : Part :=
  .ofChoices (.between alternatives.start rest)
    (alternatives.next rest).finished.reverse

end Alternatives

/-- A group whose closing parenthesis has not been read: the text from its
opening one on, its number if it is captured, and what holds around it. -/
structure OpenGroup where
  start : List Char
  number : Option Nat
  flags : Flags
  alternatives : Alternatives

/-- How far a pattern has been read. -/
structure Reader where
  flags : Flags := {}
  alternatives : Alternatives
  /-- The groups around the next part, innermost first. -/
  groups : List OpenGroup := []
  /-- How many groups have been captured. -/
  captures : Nat := 0
  names : List (List Char × Span) := []
  /-- Faults that count only if the whole text is well-formed. -/
  faults : List Fault := []

namespace Reader

def add (term : Term) (reader : Reader) : Reader :=
  { reader with alternatives := reader.alternatives.add term }

def note (faults : List Fault) (reader : Reader) : Reader :=
  { reader with faults := reader.faults ++ faults }

/-- Begin a group whose parenthesis comes at `start` and whose alternatives come
at `text`, with the given flags. -/
def beginGroup (start text : List Char) (flags : Flags)
    (number : Option Nat) (reader : Reader) : Reader :=
  { reader with
    flags
    alternatives := { start := text }
    groups :=
      ⟨start, number, reader.flags, reader.alternatives⟩ :: reader.groups }

def beginCapture (start text : List Char) (reader : Reader) : Reader :=
  { reader with captures := reader.captures + 1 }.beginGroup start text
    reader.flags (some (reader.captures + 1))

/-- End the innermost group, where the parenthesis comes at `stop`. -/
def endGroup (stop : List Char) (reader : Reader) : Attempt Reader :=
  match reader.groups with
  | [] => faultAt .unopenedGroup (.ofFirst stop)
  | group :: groups =>
    let inner := reader.alternatives.part stop
    let part : Part := { inner with
      expression :=
        match group.number with
        | none => inner.expression
        | some number => .capture number inner.expression
      span := .between group.start (stop.drop 1) }
    .ok { reader with
      flags := group.flags
      alternatives := group.alternatives.add (.part part.nested)
      groups }

def isNameLetter (isFirst : Bool) (letter : Char) : Bool :=
  letter = '_' || isAlphabetic letter ||
    (!isFirst && (isNumeric letter || letter ∈ ['.', '[', ']']))

/-- Skip the name of a group up to the angle bracket behind it. -/
def skipName (isFirst : Bool) : List Char → Attempt (List Char)
  | [] => faultAt .openName (.inFront [])
  | '>' :: rest => .ok ('>' :: rest)
  | letter :: rest =>
    if isNameLetter isFirst letter then skipName false rest
    else faultAt .nameLetter (.ofFirst (letter :: rest))

/-- Read the name of the group that begins at `start`. -/
def readName (start text : List Char) (reader : Reader) :
    Attempt (Reader × List Char) := do
  let rest ← skipName true text
  let name := text.take (text.length - rest.length)
  let span : Span := .between text rest
  match name, reader.names.lookup name with
  | [], _ => faultAt .emptyName span
  | _, some earlier => .error ⟨.repeatedName, [span, earlier]⟩
  | _, none =>
    let reader := reader.beginCapture start (rest.drop 1)
    return ({ reader with names := (name, span) :: reader.names }, rest.drop 1)

/-- The text behind the beginning of a group that looks around, if there is
one. -/
def lookAround? : List Char → Option (List Char)
  | '?' :: '=' :: rest | '?' :: '!' :: rest => some rest
  | '?' :: '<' :: '=' :: rest | '?' :: '<' :: '!' :: rest => some rest
  | _ => none

/-- Read the beginning of a group, or a change of flags. -/
def readGroup (start : List Char) (reader : Reader) :
    Attempt (Reader × List Char) := do
  let text := reader.flags.skip (start.drop 1)
  if let some rest := lookAround? text then
    faultAt .lookAround (.between start rest)
  else
    match text with
    | '?' :: 'P' :: '<' :: rest | '?' :: '<' :: rest =>
      reader.readName start rest
    | ['?'] => faultAt .openGroup (.ofFirst start)
    | '?' :: letters => do
      match ← readFlagsFrom reader.flags true [] letters with
      | (flags, ':' :: rest) =>
        return (reader.beginGroup start rest flags none, rest)
      | (flags, rest) =>
        if rest.length = letters.length then
          faultAt .nothingToRepeat (.inFront text)
        else return ({ reader with flags }.add .flags, rest.drop 1)
    | rest => return (reader.beginCapture start rest, rest)

/-! ## Parts -/

/-- The last part, where an operator that repeats it comes at `start`. -/
def lastPart (start : List Char) (reader : Reader) : Attempt Part :=
  match reader.alternatives.terms with
  | .part part :: _ => .ok part
  | _ => faultAt .nothingToRepeat (.inFront start)

/-- Repeat the last part, in front of the rest of the text. -/
def repeatLast (part : Part) (limits : Limits) (rest : List Char)
    (reader : Reader) : Reader :=
  let repeated : Part := { part with
    expression :=
      part.expression.repeated limits.least limits.most limits.prefersShort
    span := ⟨part.span.start, rest.length⟩ }
  { reader with
    alternatives.terms :=
      .part repeated.nested :: reader.alternatives.terms.drop 1 }

def readRepetition (least : Nat) (most : Option Nat) (start : List Char)
    (reader : Reader) : Attempt (Reader × List Char) := do
  let part ← reader.lastPart start
  let (prefersShort, rest) := readPreference reader.flags (start.drop 1)
  return (reader.repeatLast part { least, most, prefersShort } rest, rest)

def readCounted (start : List Char) (reader : Reader) :
    Attempt (Reader × List Char) := do
  let part ← reader.lastPart start
  let (limits, rest) ← readCount reader.flags start
  return (reader.repeatLast part limits rest, rest)

/-- The characters that a dot stands for: all but the ends of lines. -/
def dotLetters (flags : Flags) : Letters :=
  if flags.dotIsAll then Letters.complement []
  else if flags.endsLinesAtReturn then
    (Letters.single '\n' ++ .single '\r').complement
  else (Letters.single '\n').complement

/-- The assertion that a sign stands for, if it is one. -/
def signAssertion? (flags : Flags) : Char → Option Assertion
  | '^' =>
    some (if !flags.isMultiline then .textStart
      else if flags.endsLinesAtReturn then .returnLineStart else .lineStart)
  | '$' =>
    some (if !flags.isMultiline then .textEnd
      else if flags.endsLinesAtReturn then .returnLineEnd else .lineEnd)
  | _ => none

/-- Read a part that is no group, class or repetition. -/
def readPrimitive (flags : Flags) : List Char → Attempt (Primitive × List Char)
  | [] => faultAt .openEscape (.inFront [])
  | '\\' :: rest => readEscape flags ('\\' :: rest)
  | letter :: rest =>
    let span : Span := .between (letter :: rest) rest
    match signAssertion? flags letter with
    | some claim => .ok (⟨.claim claim, span, none⟩, rest)
    | none =>
      if letter = '.' then
        let fault := if flags.isUnicode then none else some Cause.brokenText
        .ok (⟨.letters (dotLetters flags), span, fault⟩, rest)
      else .ok (⟨.letter letter, span, none⟩, rest)

/-- Add a part that selects a character. -/
def addSelection (selection : Selection) (reader : Reader) : Reader :=
  (reader.note selection.faults).add <| .part {
    expression := .ofLetters (!reader.flags.isUnicode) selection.letters
    span := selection.span
    nesting := selection.nesting }

/-- Whether an assertion can be checked.  Only words of ASCII characters are
known. -/
def isChecked (flags : Flags) : Assertion → Bool
  | .textStart | .textEnd | .lineStart | .lineEnd | .returnLineStart
  | .returnLineEnd => true
  | .wordBoundary | .noWordBoundary | .wordStart | .wordEnd | .noWordBefore
  | .noWordBehind => !flags.isUnicode

/-- Add a primitive part.  A single character stands for both its cases where
case does not count. -/
def addPrimitive (primitive : Primitive) (reader : Reader) : Reader :=
  let selection (letters : Letters) : Selection :=
    { letters, span := primitive.span, faults := primitive.faults }
  match primitive.meaning with
  | .claim claim =>
    reader.add <| .part {
      expression := .assertion claim (isChecked reader.flags claim)
      span := primitive.span }
  | .letters letters => reader.addSelection (selection letters)
  | .letter letter =>
    reader.addSelection ((selection (.single letter)).folded reader.flags)

/-- Read the next part from its first character on. -/
def step (letter : Char) (text : List Char) (reader : Reader) :
    Attempt (Reader × List Char) := do
  match letter with
  | '(' => reader.readGroup text
  | ')' => return (← reader.endGroup text, text.drop 1)
  | '|' =>
    return ({ reader with alternatives := reader.alternatives.next text },
      text.drop 1)
  | '[' => do
    let (selection, rest) ← readClass reader.flags text
    return (reader.addSelection selection, rest)
  | '?' => reader.readRepetition 0 (some 1) text
  | '*' => reader.readRepetition 0 none text
  | '+' => reader.readRepetition 1 none text
  | '\x7b' => reader.readCounted text
  | _ => do
    let (primitive, rest) ← readPrimitive reader.flags text
    return (reader.addPrimitive primitive, rest)

/-- Read the rest of a pattern. -/
def readFrom (reader : Reader) : (fuel : Nat) → List Char → Attempt Reader
  | 0, _ => .ok reader
  | fuel + 1, text =>
    match reader.flags.skip text with
    | [] => .ok reader
    | letter :: rest => do
      let (reader, rest) ← reader.step letter (letter :: rest)
      reader.readFrom fuel rest

/-- The faults that a well-formed pattern has as a whole. -/
def generalFaults (expression : Expression) : List Fault :=
  [(expression.isTooLarge true, Cause.tooLarge),
    (!expression.isKnown, .wordBoundary),
    (expression.isTooLarge false, .tooLarge)].filterMap
    fun (isFaulty, cause) => if isFaulty then some ⟨cause, []⟩ else none

/-- What has been read, unless it has a fault. -/
def finish (reader : Reader) : Attempt Expression :=
  let part := reader.alternatives.part []
  let depthFaults :=
    ((part.nesting.deeper? Nesting.depthLimit).map fun span =>
      Fault.mk .deepNesting [span]).toList
  match reader.groups, depthFaults ++ reader.faults with
  | group :: _, _ => faultAt .openGroup (.ofFirst group.start)
  | [], fault :: _ => .error fault
  | [], [] =>
    match generalFaults part.expression with
    | fault :: _ => .error fault
    | [] => .ok part.expression

end Reader

def read (text : List Char) : Attempt Pattern := do
  let reader : Reader := { alternatives := { start := text } }
  let reader ← reader.readFrom (text.length + 1) text
  return (← reader.finish).pattern

end Metastring.Pattern
