import Metastring.DecodeError
import Metastring.Decimal
import Metastring.Magnitude

/-!
# Lexical elements of JSON

Quoted texts and numbers, read from a list of characters.  Every reader
returns what it read together with the characters behind it.  Quoted texts
have to denote characters, so the two halves of a surrogate pair must come
together; where a text is only passed over, its escapes need not.
-/

namespace Metastring.Json

/-- The blanks between the elements of a document. -/
def isSpace (letter : Char) : Bool :=
  letter = ' ' || letter = '\n' || letter = '\t' || letter = '\r'

/-- The characters from the next element on. -/
def skipSpace (text : List Char) : List Char :=
  text.dropWhile isSpace

/-- The characters behind a word that the text has to start with. -/
def afterWord : (word : List Char) → List Char →
    Decoded (List Char)
  | [], text => .ok text
  | _ :: _, [] => .error .malformed
  | expected :: word, letter :: text =>
    if letter = expected then afterWord word text else .error .malformed

/-- The characters behind the colon that follows a key. -/
def afterColon (text : List Char) : Decoded (List Char) :=
  afterWord [':'] (skipSpace text)

/-- The UTF-16 unit written by four hexadecimal digits. -/
def unit? (a b c d : Char) : Option Nat := do
  let a ← hexValue? a
  let b ← hexValue? b
  let c ← hexValue? c
  let d ← hexValue? d
  return a * 4096 + b * 256 + c * 16 + d

/-- The character written by a backslash and one letter. -/
def shortEscape? : Char → Option Char
  | '"' => some '"'
  | '\\' => some '\\'
  | '/' => some '/'
  | 'b' => some '\x08'
  | 'f' => some '\x0c'
  | 'n' => some '\n'
  | 'r' => some '\r'
  | 't' => some '\t'
  | _ => none

def prepend (letter : Char) (reading : Decoded (List Char × List Char)) :
    Decoded (List Char × List Char) :=
  reading.map fun (letters, rest) => (letter :: letters, rest)

/-- Read a quoted text from behind its opening quote. -/
def quotedLetters : List Char → Decoded (List Char × List Char)
  | [] => .error .malformed
  | '"' :: rest => .ok ([], rest)
  | '\\' :: 'u' :: a :: b :: c :: d :: rest =>
    match unit? a b c d with
    | none => .error .malformed
    | some unit =>
      if 0xDC00 ≤ unit ∧ unit ≤ 0xDFFF then .error .malformed
      else if 0xD800 ≤ unit ∧ unit ≤ 0xDBFF then
        match rest with
        | '\\' :: 'u' :: a :: b :: c :: d :: rest =>
          match unit? a b c d with
          | none => .error .malformed
          | some low =>
            if 0xDC00 ≤ low ∧ low ≤ 0xDFFF then
              prepend
                (Char.ofNat
                  ((unit - 0xD800) * 1024 + (low - 0xDC00) + 0x10000))
                (quotedLetters rest)
            else .error .malformed
        | _ => .error .malformed
      else prepend (Char.ofNat unit) (quotedLetters rest)
  | '\\' :: letter :: rest =>
    match shortEscape? letter with
    | none => .error .malformed
    | some meant => prepend meant (quotedLetters rest)
  | letter :: rest =>
    if letter < ' ' then .error .malformed
    else prepend letter (quotedLetters rest)

def quoted (text : List Char) : Decoded (String × List Char) :=
  (quotedLetters text).map fun (letters, rest) => (String.ofList letters, rest)

/-- Pass over a quoted text from behind its opening quote. -/
def skipQuoted : List Char → Decoded (List Char)
  | [] => .error .malformed
  | '"' :: rest => .ok rest
  | '\\' :: 'u' :: a :: b :: c :: d :: rest =>
    match unit? a b c d with
    | none => .error .malformed
    | some _ => skipQuoted rest
  | '\\' :: letter :: rest =>
    match shortEscape? letter with
    | none => .error .malformed
    | some _ => skipQuoted rest
  | letter :: rest =>
    if letter < ' ' then .error .malformed else skipQuoted rest

/-- The parts of a number: whether it has a minus sign, the digits before and
behind the point, and the exponent. -/
structure Number where
  negative : Bool
  whole : List Char
  fraction : Option (List Char)
  exponent : Option Int
deriving DecidableEq, Inhabited

def digitRun (text : List Char) : Decoded (List Char × List Char) :=
  match text.span fun letter => '0' ≤ letter && letter ≤ '9' with
  | ([], _) => .error .malformed
  | run => .ok run

def runValue (digits : List Char) : Nat :=
  (digits? 10 digits).getD 0

/-- Read the digits before the point; a zero stands alone. -/
def wholePart (text : List Char) : Decoded (List Char × List Char) := do
  let (digits, rest) ← digitRun text
  match digits with
  | '0' :: _ :: _ => .error .malformed
  | _ => return (digits, rest)

/-- Read the point and the digits behind it, if there is a point. -/
def fractionPart : List Char → Decoded (Option (List Char) × List Char)
  | '.' :: text => do
    let (digits, rest) ← digitRun text
    return (some digits, rest)
  | text => .ok (none, text)

/-- Read the exponent behind its letter. -/
def exponentValue : List Char → Decoded (Int × List Char)
  | '-' :: text => do
    let (digits, rest) ← digitRun text
    return (-(runValue digits : Int), rest)
  | '+' :: text => do
    let (digits, rest) ← digitRun text
    return (runValue digits, rest)
  | text => do
    let (digits, rest) ← digitRun text
    return (runValue digits, rest)

def exponentPart : List Char → Decoded (Option Int × List Char)
  | 'e' :: text | 'E' :: text => do
    let (exponent, rest) ← exponentValue text
    return (some exponent, rest)
  | text => .ok (none, text)

def number (text : List Char) : Decoded (Number × List Char) := do
  let (negative, text) := match text with
    | '-' :: text => (true, text)
    | _ => (false, text)
  let (whole, text) ← wholePart text
  let (fraction, text) ← fractionPart text
  let (exponent, text) ← exponentPart text
  return (⟨negative, whole, fraction, exponent⟩, text)

/-- Continue a significand with digits as long as it stays below `UInt64.size`;
returned with the digits that were left out. -/
def significandFrom (significand : Nat) : List Char → Nat × List Char
  | [] => (significand, [])
  | digit :: rest =>
    let extended := significand * 10 + runValue [digit]
    if extended < UInt64.size then significandFrom extended rest
    else (significand, digit :: rest)

namespace Number

/-- The size that a number is, if it is written as one. -/
def size? (number : Number) : Option UInt64 :=
  match number with
  | ⟨false, whole, none, none⟩ => readSize? whole
  | _ => none

/-- Whether a number can be represented in double precision.  Its significand
has the leading digits that fit in 64 bits. -/
def isFinite (number : Number) : Bool :=
  let (significand, leftOut) := significandFrom 0 number.whole
  let fraction := number.fraction.getD []
  let (significand, ignored) := significandFrom significand fraction
  let exponent : Int := leftOut.length - (fraction.length - ignored.length) +
    number.exponent.getD 0
  exponent < 0 || !exceedsDouble significand exponent.toNat

end Number

/-- Read a number that has to be representable. -/
def finiteNumber (text : List Char) : Decoded (Number × List Char) := do
  let (value, rest) ← number text
  if value.isFinite then return (value, rest) else .error .malformed

end Metastring.Json
