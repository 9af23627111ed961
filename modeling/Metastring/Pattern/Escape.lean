import Metastring.Blank
import Metastring.Decimal
import Metastring.Pattern.Basic
import Metastring.Pattern.Fault

/-!
# Primitive parts of written patterns

Outside groups, classes and repetitions a pattern is written character by
character, and a backslash gives characters another meaning.

Some parts are well-formed and yet denote nothing: sets that are named by
letters know ASCII alone, so they are only available where the pattern is
limited to ASCII.  Their faults count only if the whole text is well-formed.
-/

namespace Metastring.Pattern

/-- The settings that a pattern may change for its further parts. -/
structure Flags where
  ignoresCase : Bool := false
  isMultiline : Bool := false
  dotIsAll : Bool := false
  endsLinesAtReturn : Bool := false
  /-- Whether repetitions prefer short texts. -/
  prefersShort : Bool := false
  ignoresBlanks : Bool := false
  isUnicode : Bool := true
deriving DecidableEq, Inhabited

/-- The text behind blanks and comments. -/
def skipBlanksFrom (inComment : Bool) : List Char → List Char
  | [] => []
  | letter :: rest =>
    if inComment then skipBlanksFrom (letter ≠ '\n') rest
    else if isBlank letter then skipBlanksFrom false rest
    else if letter = '#' then skipBlanksFrom true rest
    else letter :: rest

/-- The text behind blanks and comments, where they do not count. -/
def Flags.skip (flags : Flags) (text : List Char) : List Char :=
  if flags.ignoresBlanks then skipBlanksFrom false text else text

/-- The places of the characters that satisfy a test, up to the first one that
does not, and the text from that one on.  A place is the text from the
character on.  Blanks and comments are passed over where they do not count. -/
def Flags.placesWhile (flags : Flags) (test : Char → Bool)
    (inComment : Bool) : List Char → List (List Char) × List Char
  | [] => ([], [])
  | letter :: rest =>
    if flags.ignoresBlanks && inComment then
      flags.placesWhile test (letter ≠ '\n') rest
    else if flags.ignoresBlanks && isBlank letter then
      flags.placesWhile test false rest
    else if flags.ignoresBlanks && letter = '#' then
      flags.placesWhile test true rest
    else if test letter then
      let (places, behind) := flags.placesWhile test false rest
      ((letter :: rest) :: places, behind)
    else ([], letter :: rest)

/-- The characters that satisfy a test, up to the first one that does not, and
the text from that one on. -/
def Flags.takeWhile (flags : Flags) (test : Char → Bool) (text : List Char) :
    List Char × List Char :=
  let (places, rest) := flags.placesWhile test false text
  (places.filterMap List.head?, rest)

/-- What reading a part gives, if it has no fault. -/
abbrev Attempt (α : Type) := Except Fault α

def faultAt {α : Type} (cause : Cause) (span : Span) : Attempt α :=
  .error ⟨cause, [span]⟩

/-- What a primitive part means. -/
inductive Meaning where
  | letter (letter : Char)
  | letters (letters : Letters)
  | claim (claim : Assertion)
deriving Inhabited

/-- A primitive part, with the fault that it has if it denotes nothing. -/
structure Primitive where
  meaning : Meaning
  span : Span
  fault : Option Cause := none
deriving Inhabited

def Primitive.faults (primitive : Primitive) : List Fault :=
  (primitive.fault.map fun cause => ⟨cause, [primitive.span]⟩).toList

/-- Characters that mean themselves behind a backslash: everything in ASCII but
letters, digits and angle brackets. -/
def isEscapable (letter : Char) : Bool :=
  letter < '\x80' && !Letters.alphanumerics.has letter && letter ≠ '<' &&
    letter ≠ '>'

/-- The control character that a letter stands for behind a backslash. -/
def controlEscape? : Char → Option Char
  | 'a' => some '\x07'
  | 'f' => some '\x0c'
  | 't' => some '\t'
  | 'n' => some '\n'
  | 'r' => some '\r'
  | 'v' => some '\x0b'
  | _ => none

/-- The assertion that a letter stands for behind a backslash. -/
def assertionEscape? : Char → Option Assertion
  | 'A' => some .textStart
  | 'z' => some .textEnd
  | 'b' => some .wordBoundary
  | 'B' => some .noWordBoundary
  | '<' => some .wordStart
  | '>' => some .wordEnd
  | _ => none

/-- The set that a letter stands for behind a backslash. -/
def setEscape? : Char → Option Letters
  | 'd' => some Letters.digits
  | 's' => some Letters.spaces
  | 'w' => some Letters.words
  | 'D' => some Letters.digits.complement
  | 'S' => some Letters.spaces.complement
  | 'W' => some Letters.words.complement
  | _ => none

def setFault (flags : Flags) (letters : Letters) : Option Cause :=
  if flags.isUnicode then some .namedSet
  else if letters.isAscii then none
  else some .brokenText

/-- The character with the code point written by hexadecimal digits. -/
def hexLetter? (letters : List Char) : Option Char := do
  let code ← digits? 16 letters
  if code.isValidChar then return Char.ofNat code else none

/-- Whether an opening brace comes next. -/
def atBrace (text : List Char) : Bool :=
  text.head? = some '\x7b'

/-- Read a fixed number of hexadecimal digits. -/
def hexDigits (flags : Flags) :
    (count : Nat) → List Char → Attempt (List Char × List Char)
  | 0, rest => .ok ([], rest)
  | _ + 1, [] => faultAt .openEscape (.inFront [])
  | count + 1, letter :: rest =>
    if (hexValue? letter).isNone then
      faultAt .hexDigit (.ofFirst (letter :: rest))
    else do
      let (letters, rest) ← hexDigits flags count (flags.skip rest)
      return (letter :: letters, rest)

/-- Read the code point of a character between braces, from the opening one
on. -/
def readBracedCodePoint (flags : Flags) (brace : List Char) :
    Attempt (Char × List Char) :=
  let inside := brace.drop 1
  let (letters, stop) :=
    flags.takeWhile (fun letter => (hexValue? letter).isSome) inside
  match stop with
  | [] => faultAt .openEscape (.between brace [])
  | '\x7d' :: rest =>
    let rest := flags.skip rest
    match letters, hexLetter? letters with
    | [], _ => faultAt .noHexDigits (.between brace rest)
    | _, some letter => .ok (letter, rest)
    | _, none => faultAt .noCodePoint (.between inside stop)
  | _ => faultAt .hexDigit (.ofFirst stop)

/-- Read the code point of a character from behind the letter that tells how
many digits it has. -/
def readCodePoint (flags : Flags) (kind : Char) (text : List Char) :
    Attempt (Char × List Char) :=
  if text = [] then faultAt .openEscape (.inFront [])
  else if atBrace text then readBracedCodePoint flags text
  else do
    let count := if kind = 'x' then 2 else if kind = 'u' then 4 else 8
    let (letters, rest) ← hexDigits flags count text
    match hexLetter? letters with
    | some letter => return (letter, rest)
    | none => faultAt .noCodePoint (.between text rest)

/-- The name of a property in the form in which names are compared: in small
ASCII letters, without blanks, hyphens and underscores, and without `is` in
front. -/
def propertyName (name : List Char) : List Char :=
  let startsWithIs := (name.take 2).map Char.toLower = ['i', 's']
  let plain := ((if startsWithIs then name.drop 2 else name).filter
    fun letter => letter ≤ '\x7f' && letter ∉ [' ', '_', '-']).map Char.toLower
  if startsWithIs && plain = ['c'] then ['i', 's', 'c'] else plain

/-- What is not found where a property has the given name: three names are
those of general categories. -/
def propertyCause (name : List Char) : Cause :=
  if propertyName name ∈ [['c', 'f'], ['s', 'c'], ['l', 'c']] then
    .unknownPropertyValue
  else .unknownProperty

/-- Read the name of a property from behind its letter.  It has a single
character or stands between braces. -/
def readPropertyName (flags : Flags) :
    List Char → Attempt (List Char × List Char)
  | [] => faultAt .openEscape (.inFront [])
  | '\\' :: rest => faultAt .propertyLetter (.ofFirst ('\\' :: rest))
  | letter :: rest =>
    if letter = '\x7b' then
      match flags.takeWhile (· ≠ '\x7d') rest with
      | (_, []) => faultAt .openEscape (.inFront [])
      | (name, _ :: rest) => .ok (name, rest)
    else .ok ([letter], flags.skip rest)

/-- Read which boundary of a word is meant, from the brace behind it on;
`start` is the text from the backslash on.  Other braces are left to be read as
a count. -/
def readBoundary (flags : Flags) (start brace : List Char) :
    Attempt (Assertion × List Char) :=
  let contents := flags.skip (brace.drop 1)
  let (name, stop) := flags.takeWhile
    (fun letter =>
      letter = '-' || (Letters.alphanumerics.diff Letters.digits).has letter)
    contents
  if contents = [] then faultAt .openBoundaryOrCount (.between start [])
  else if name = [] then .ok (.wordBoundary, brace)
  else
    match stop with
    | '\x7d' :: rest =>
      match String.ofList name with
      | "start" => .ok (.wordStart, rest)
      | "end" => .ok (.wordEnd, rest)
      | "start-half" => .ok (.noWordBefore, rest)
      | "end-half" => .ok (.noWordBehind, rest)
      | _ => faultAt .unknownBoundary (.between contents stop)
    | stop => faultAt .openBoundary (.between brace stop)

/-- Read what a letter means behind a backslash; `start` is the text from the
backslash on, and `rest` the text behind the letter. -/
def readMeaning (flags : Flags) (start : List Char) (letter : Char)
    (rest : List Char) : Attempt ((Meaning × Option Cause) × List Char) :=
  if Letters.digits.has letter then
    faultAt .backreference (.between start rest)
  else if letter = 'x' || letter = 'u' || letter = 'U' then do
    let digits := flags.skip rest
    let (meant, behind) ← readCodePoint flags letter digits
    let isByte := letter = 'x' && !atBrace digits
    let fault :=
      if isByte && !flags.isUnicode && '\x7f' < meant then
        some Cause.brokenText
      else none
    return ((.letter meant, fault), behind)
  else if letter = 'p' || letter = 'P' then do
    let (name, rest) ← readPropertyName flags (flags.skip rest)
    let cause :=
      if flags.isUnicode then propertyCause name else .beyondAscii
    return ((.letters [], some cause), rest)
  else if isEscapable letter then .ok ((.letter letter, none), rest)
  else
    match setEscape? letter, controlEscape? letter, assertionEscape? letter with
    | some letters, _, _ =>
      .ok ((.letters letters, setFault flags letters), rest)
    | _, some meant, _ => .ok ((.letter meant, none), rest)
    | _, _, some claim => do
      let (claim, rest) ←
        if letter = 'b' && atBrace rest then readBoundary flags start rest
        else pure (claim, rest)
      return ((.claim claim, none), rest)
    | none, none, none => faultAt .unknownEscape (.between start rest)

/-- Read a primitive part from its backslash on. -/
def readEscape (flags : Flags) (text : List Char) :
    Attempt (Primitive × List Char) :=
  match text.drop 1 with
  | [] => faultAt .openEscape (.between text [])
  | letter :: rest => do
    let ((meaning, fault), rest) ← readMeaning flags text letter rest
    return (⟨meaning, .between text rest, fault⟩, rest)

end Metastring.Pattern
