import Metastring.Decimal
import Metastring.Yaml.Cursor

/-!
# Tags in a YAML text

A tag is a handle and a suffix; the handle stands for the beginning of the tag
and may be declared by a directive.  Suffixes are written in the letters of
URIs, with percent escapes for all other bytes, so a tag is a byte string.
-/

namespace Metastring.Yaml

/-- The letters of a URI.  Commas and brackets may only appear in a tag that
is written in full or in a directive. -/
def isUriLetter (full : Bool) (letter : Char) : Bool :=
  isNameLetter letter ||
    [';', '/', '?', ':', '@', '&', '=', '+', '$', '.', '!', '~', '*', '\'',
      '(', ')'].contains letter ||
    (full && [',', '[', ']'].contains letter)

/-- How many bytes follow the first byte of an escaped code point. -/
def followers? (first : Nat) : Option Nat :=
  if first < 0x80 then some 0
  else if first < 0xC0 then none
  else if first < 0xE0 then some 1
  else if first < 0xF0 then some 2
  else if first < 0xF8 then some 3
  else none

/-- Read the bytes of a URI.  While `expected` is positive, that many escaped
bytes have to follow, which continue a code point. -/
def uriBytes (full : Bool) (expected : Nat) :
    List Char → Option (List UInt8 × List Char)
  | [] => if expected = 0 then some ([], []) else none
  | '%' :: high :: low :: rest => do
    let byte ← digits? 16 [high, low]
    let expected ←
      match expected with
      | 0 => followers? byte
      | expected + 1 =>
        if 0x80 ≤ byte ∧ byte < 0xC0 then some expected else none
    let (bytes, rest) ← uriBytes full expected rest
    return (UInt8.ofNat byte :: bytes, rest)
  | letter :: rest =>
    if letter = '%' then none
    else if expected ≠ 0 then none
    else if isUriLetter full letter then do
      let (bytes, rest) ← uriBytes full 0 rest
      return (UInt8.ofNat letter.toNat :: bytes, rest)
    else some ([], letter :: rest)

/-- Read the bytes of a URI up to the first zero byte among them; at least one
letter is needed. -/
def uri (full : Bool) (text : List Char) :
    Option (List UInt8 × List Char) := do
  let (bytes, rest) ← uriBytes full 0 text
  if bytes = [] then none
  else return (bytes.takeWhile (· ≠ 0), rest)

/-- Read the letters that may form a handle: an exclamation mark, name letters,
and perhaps another exclamation mark. -/
def handleLetters : List Char → Option (List Char × List Char)
  | '!' :: text =>
    let name := text.takeWhile isNameLetter
    match text.dropWhile isNameLetter with
    | '!' :: rest => some ('!' :: name ++ ['!'], rest)
    | rest => some ('!' :: name, rest)
  | _ => none

/-- A handle has an exclamation mark at both ends. -/
def isHandle (letters : List Char) : Bool :=
  1 < letters.length && letters.getLast? = some '!'

/-- A tag as it is written.  Without a handle the suffix is the whole tag. -/
structure WrittenTag where
  handle : List Char
  suffix : List UInt8
deriving DecidableEq, Inhabited

/-- Read a tag in angle brackets from behind the opening one. -/
def fullTag (text : List Char) : Option (WrittenTag × List Char) := do
  let (suffix, rest) ← uri true text
  match rest with
  | '>' :: rest => return (⟨[], suffix⟩, rest)
  | _ => none

/-- Read a tag that begins with an exclamation mark: a handle and a suffix, or
a suffix of the primary handle.  The exclamation mark alone is a whole tag. -/
def shortTag (text : List Char) : Option (WrittenTag × List Char) := do
  let (letters, rest) ← handleLetters text
  if isHandle letters then
    let (suffix, rest) ← uri false rest
    return (⟨letters, suffix⟩, rest)
  else
    let (bytes, rest) ← uriBytes false 0 rest
    let name := letters.drop 1
    let suffix := (name.map fun letter => UInt8.ofNat letter.toNat) ++
      bytes.takeWhile (· ≠ 0)
    if suffix = [] then return (⟨[], [33]⟩, rest)
    else return (⟨['!'], suffix⟩, rest)

/-- Read a tag, which a gap has to follow or, in a flow collection, a comma. -/
def writtenTag (inFlow : Bool) (text : List Char) :
    Option (WrittenTag × List Char) := do
  let (tag, rest) ← match text with
    | '!' :: '<' :: text => fullTag text
    | text => shortTag text
  if atGap rest || (inFlow && atOneOf [','] rest) then return (tag, rest)
  else none

/-- A line in front of a document: a version, or what a handle stands for. -/
inductive Directive where
  | version (major minor : Nat)
  | handle (letters : List Char) (meaning : List UInt8)
deriving DecidableEq, Inhabited

/-- Read a number of a version, which has at most nine digits. -/
def versionNumber (text : List Char) : Option (Nat × List Char) := do
  let digits := text.takeWhile fun letter => '0' ≤ letter && letter ≤ '9'
  if 9 < digits.length then none
  else
    let number ← digits? 10 digits
    return (number, text.drop digits.length)

/-- Read a version from behind its name. -/
def versionDirective (text : List Char) : Option (Directive × List Char) := do
  let (major, rest) ← versionNumber (text.dropWhile isSpace)
  match rest with
  | '.' :: rest =>
    let (minor, rest) ← versionNumber rest
    return (.version major minor, rest)
  | _ => none

/-- Read the declaration of a handle from behind its name. -/
def handleDirective (text : List Char) : Option (Directive × List Char) := do
  let (letters, rest) ← handleLetters (text.dropWhile isSpace)
  if !isHandle letters && letters ≠ ['!'] then none
  else if !atOneOf [' ', '\t'] rest then none
  else
    let (meaning, rest) ← uri true (rest.dropWhile isSpace)
    if atGap rest then return (.handle letters meaning, rest) else none

/-- Read a directive from behind its percent sign, but for the end of its
line. -/
def directive (text : List Char) : Option (Directive × List Char) :=
  let name := text.takeWhile isNameLetter
  let rest := text.drop name.length
  if !atGap rest then none
  else if name = ['Y', 'A', 'M', 'L'] then versionDirective rest
  else if name = ['T', 'A', 'G'] then handleDirective rest
  else none

end Metastring.Yaml
