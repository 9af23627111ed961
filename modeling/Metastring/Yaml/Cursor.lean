/-!
# Positions in a YAML text

A cursor holds the characters still to be read together with their position:
how many bytes, lines and columns lie before them, where a column holds one
character.  Line breaks are the five characters of YAML 1.1, and a carriage
return followed by a line feed is one break.
-/

namespace Metastring.Yaml

/-- The characters a text may contain. -/
def isAllowed (letter : Char) : Bool :=
  letter = '\t' || letter = '\n' || letter = '\r' ||
    (' ' ≤ letter && letter ≤ '~') || letter = '\u0085' ||
    ('\u00A0' ≤ letter && letter ≤ '\uFFFD') || 0x10000 ≤ letter.toNat

def isSpace (letter : Char) : Bool :=
  letter = ' ' || letter = '\t'

def isBreak (letter : Char) : Bool :=
  letter = '\n' || letter = '\r' || letter = '\u0085' ||
    letter = '\u2028' || letter = '\u2029'

def isNameLetter (letter : Char) : Bool :=
  ('0' ≤ letter && letter ≤ '9') || ('A' ≤ letter && letter ≤ 'Z') ||
    ('a' ≤ letter && letter ≤ 'z') || letter = '_' || letter = '-'

/-- Whether a line, and with it perhaps the text, ends here. -/
def atLineEnd : List Char → Bool
  | [] => true
  | letter :: _ => isBreak letter

/-- Whether a space, a line break or the end of the text comes next. -/
def atGap : List Char → Bool
  | [] => true
  | letter :: _ => isSpace letter || isBreak letter

/-- Whether one of the given characters comes next. -/
def atOneOf (letters : List Char) : List Char → Bool
  | [] => false
  | letter :: _ => letters.contains letter

/-- Whether a line that begins here begins with a document marker. -/
def atDocumentMarker : List Char → Bool
  | '-' :: '-' :: '-' :: rest => atGap rest
  | '.' :: '.' :: '.' :: rest => atGap rest
  | _ => false

/-- What a line break stands for: the three common breaks mean the same, the
two Unicode separators mean themselves. -/
def breakMeaning (letter : Char) : List Char :=
  if letter = '\u2028' || letter = '\u2029' then [letter] else ['\n']

/-- The number of bytes that characters take in UTF-8. -/
def byteSize : List Char → Nat
  | [] => 0
  | letter :: rest => letter.utf8Size + byteSize rest

/-- A place in a text; the index counts the bytes before it. -/
structure Position where
  index : Nat := 0
  line : Nat := 0
  column : Nat := 0
deriving DecidableEq, Inhabited

namespace Position

/-- The position after the given characters of the same line. -/
def forward (position : Position) (letters : List Char) : Position :=
  { position with
    index := position.index + byteSize letters
    column := position.column + letters.length }

/-- The position after the given characters, the last of which break the
line. -/
def nextLine (position : Position) (letters : List Char) : Position :=
  ⟨position.index + byteSize letters, position.line + 1, 0⟩

end Position

/-- The characters still to be read and where they begin. -/
structure Cursor where
  position : Position
  text : List Char
deriving Inhabited

namespace Cursor

def start (text : List Char) : Cursor :=
  ⟨{}, text⟩

def skip (cursor : Cursor) (count : Nat) : Cursor :=
  ⟨cursor.position.forward (cursor.text.take count), cursor.text.drop count⟩

/-- Pass over the characters of the same line that lie before `rest`. -/
def skipTo (cursor : Cursor) (rest : List Char) : Cursor :=
  cursor.skip (cursor.text.length - rest.length)

/-- Pass over the characters of the same line that satisfy a test. -/
def skipWhile (cursor : Cursor) (test : Char → Bool) : Cursor :=
  cursor.skip (cursor.text.takeWhile test).length

def skipBreak (cursor : Cursor) : Cursor :=
  match cursor.text with
  | '\r' :: '\n' :: rest => ⟨cursor.position.nextLine ['\r', '\n'], rest⟩
  | letter :: rest =>
    if isBreak letter then ⟨cursor.position.nextLine [letter], rest⟩
    else cursor
  | [] => cursor

/-- What the line break here stands for; nothing if there is none. -/
def breakHere (cursor : Cursor) : List Char :=
  match cursor.text with
  | letter :: _ => if isBreak letter then breakMeaning letter else []
  | [] => []

def skipComment (cursor : Cursor) : Cursor :=
  match cursor.text with
  | '#' :: _ => cursor.skipWhile fun letter => !isBreak letter
  | _ => cursor

/-- Pass over spaces and a comment at the end of a line and over the line
break; anything else there is a fault. -/
def skipLineEnd (cursor : Cursor) : Option Cursor :=
  let behind := (cursor.skipWhile isSpace).skipComment
  if atLineEnd behind.text then some behind.skipBreak else none

end Cursor

end Metastring.Yaml
