import Metastring.Yaml.Scalar
import Metastring.Yaml.Tag

/-!
# Tokens of a YAML text

A text is split into tokens from left to right.  Outside flow collections the
indentation of a line opens and closes collections, and a mapping without
braces is recognised only when the colon behind its first key is reached: until
then the place in front of the key is kept as a possible simple key, and the
missing tokens are put there afterwards.

A simple key ends on the line it begins on and is at most 1024 bytes long.  One
that stands where the indentation demands a key has to turn out to be one.
-/

namespace Metastring.Yaml

/-- The ways in which a scalar is written. -/
inductive Style where
  | plain
  | singleQuoted
  | doubleQuoted
  | literal
  | folded
deriving DecidableEq, Inhabited

inductive Token where
  | streamEnd
  | directive (directive : Directive)
  | documentStart
  | documentEnd
  | blockSequenceStart
  | blockMappingStart
  | blockEnd
  | flowSequenceStart
  | flowSequenceEnd
  | flowMappingStart
  | flowMappingEnd
  | blockEntry
  | flowEntry
  | key
  | value
  | alias (name : List Char)
  | anchor (name : List Char)
  | tag (tag : WrittenTag)
  | scalar (style : Style) (content : List Char)
deriving DecidableEq, Inhabited

/-- A place where a simple key may begin: the number of tokens before it, and
whether the indentation demands a key there. -/
structure SimpleKey where
  number : Nat
  position : Position
  isRequired : Bool
deriving DecidableEq, Inhabited

namespace SimpleKey

/-- Whether a position is too far away for a key that began here. -/
def isStale (key : SimpleKey) (position : Position) : Bool :=
  key.position.line < position.line ||
    key.position.index + 1024 < position.index

/-- Give up a possible key that is too far away; a required one is a fault. -/
def expire (position : Position) (key : Option SimpleKey) :
    Option (Option SimpleKey) :=
  match key with
  | none => some none
  | some key =>
    if !key.isStale position then some (some key)
    else if key.isRequired then none
    else some none

end SimpleKey

/-- A text in the course of being split.  `indents` are the columns of the open
block collections and `key` is the possible simple key of the innermost
collection; `outerKeys` has one entry for each open flow collection, the
possible key of the collection around it. -/
structure Scanner where
  cursor : Cursor
  tokens : Array Token := #[]
  indents : List Nat := []
  key : Option SimpleKey := none
  outerKeys : List (Option SimpleKey) := []
  allowsKey : Bool := true
deriving Inhabited

namespace Scanner

/-! ## Basic steps -/

/-- Whether a flow collection is open. -/
def inFlow (scanner : Scanner) : Bool :=
  !scanner.outerKeys.isEmpty

/-- The column at which content of the innermost block collection begins. -/
def contentIndent (scanner : Scanner) : Nat :=
  scanner.indents.head?.elim 0 (· + 1)

def emit (scanner : Scanner) (token : Token) : Scanner :=
  { scanner with tokens := scanner.tokens.push token }

def insert (scanner : Scanner) (number : Nat) (token : Token) : Scanner :=
  { scanner with
    tokens := scanner.tokens.insertIdxIfInBounds number token }

def moveTo (scanner : Scanner) (cursor : Cursor) : Scanner :=
  { scanner with cursor }

def skip (scanner : Scanner) (count : Nat) : Scanner :=
  scanner.moveTo (scanner.cursor.skip count)

/-- Allow or forbid simple keys from here on. -/
def allowKey (scanner : Scanner) (allowed : Bool) : Scanner :=
  { scanner with allowsKey := allowed }

/-- Give up all possible keys that are too far away by now. -/
def expireKeys (scanner : Scanner) : Option Scanner := do
  let position := scanner.cursor.position
  let key ← SimpleKey.expire position scanner.key
  let outerKeys ← scanner.outerKeys.mapM (SimpleKey.expire position)
  return { scanner with key, outerKeys }

/-- Give up the possible key of the innermost collection; a required one is a
fault. -/
def dropKey (scanner : Scanner) : Option Scanner :=
  match scanner.key with
  | some key =>
    if key.isRequired then none else some { scanner with key := none }
  | none => some scanner

/-- Keep this place as a possible simple key where one is allowed. -/
def keepKey (scanner : Scanner) : Option Scanner :=
  if scanner.allowsKey then do
    let scanner ← scanner.dropKey
    let position := scanner.cursor.position
    let isRequired :=
      !scanner.inFlow && scanner.indents.head? = some position.column
    return { scanner with
      key := some ⟨scanner.tokens.size, position, isRequired⟩ }
  else some scanner

/-- Open a block collection at a column right of the innermost one, with its
token in front of the token with the given number. -/
def openBlock (scanner : Scanner) (column number : Nat) (token : Token) :
    Scanner :=
  if !scanner.inFlow && scanner.indents.head?.all (· < column) then
    { scanner.insert number token with indents := column :: scanner.indents }
  else scanner

/-- Close the block collections that satisfy a test, from the innermost one
outwards. -/
def closeBlocks (scanner : Scanner) (test : Nat → Bool) : Scanner :=
  if scanner.inFlow then scanner
  else
    let closed := scanner.indents.takeWhile test
    { scanner with
      indents := scanner.indents.dropWhile test
      tokens := scanner.tokens ++ Array.replicate closed.length .blockEnd }

/-! ## Blanks and comments -/

/-- Pass over a byte order mark, which may begin a line. -/
def skipMark (scanner : Scanner) : Scanner :=
  if scanner.cursor.position.column = 0 &&
      atOneOf ['\uFEFF'] scanner.cursor.text then scanner.skip 1
  else scanner

/-- Pass over blanks, comments and line breaks, over at most `bound` lines.  A
tab is a blank only where no simple key is allowed or a flow collection is
open, and outside flow collections a new line allows one. -/
def skipLines : (bound : Nat) → Scanner → Scanner
  | 0, scanner => scanner
  | bound + 1, scanner =>
    let tabs := scanner.inFlow || !scanner.allowsKey
    let behind := (scanner.skipMark.cursor.skipWhile fun letter =>
      letter = ' ' || (tabs && letter = '\t')).skipComment
    let scanner := scanner.moveTo behind
    match behind.text with
    | [] => scanner
    | letter :: _ =>
      if isBreak letter then
        let scanner := scanner.moveTo behind.skipBreak
        skipLines bound
          (if scanner.inFlow then scanner else scanner.allowKey true)
      else scanner

/-- Pass over everything in front of the next token. -/
def skipToToken (scanner : Scanner) : Scanner :=
  scanner.skipLines (scanner.cursor.text.length + 1)

/-! ## One token -/

/-- The end of the text ends the line and closes all block collections. -/
def fetchStreamEnd (scanner : Scanner) : Option Scanner := do
  let position := scanner.cursor.position
  let scanner :=
    if position.column = 0 then scanner
    else scanner.moveTo ⟨position.nextLine [], scanner.cursor.text⟩
  let scanner ← (scanner.closeBlocks fun _ => true).dropKey
  return (scanner.allowKey false).emit .streamEnd

/-- A directive takes a line of its own. -/
def fetchDirective (scanner : Scanner) : Option Scanner := do
  let scanner ← (scanner.closeBlocks fun _ => true).dropKey
  let cursor := scanner.cursor.skip 1
  let (directive, rest) ← Yaml.directive cursor.text
  let cursor ← (cursor.skipTo rest).skipLineEnd
  return ((scanner.allowKey false).moveTo cursor).emit (.directive directive)

/-- A document marker closes all block collections. -/
def fetchDocumentMarker (scanner : Scanner) (token : Token) :
    Option Scanner := do
  let scanner ← (scanner.closeBlocks fun _ => true).dropKey
  return ((scanner.allowKey false).skip 3).emit token

/-- An opening bracket may itself begin a simple key. -/
def fetchFlowStart (scanner : Scanner) (token : Token) : Option Scanner := do
  let scanner ← scanner.keepKey
  return ({ scanner with
    key := none
    outerKeys := scanner.key :: scanner.outerKeys
    allowsKey := true }.skip 1).emit token

/-- A closing bracket returns to the collection around; a stray one closes
nothing. -/
def fetchFlowEnd (scanner : Scanner) (token : Token) : Option Scanner := do
  let scanner ← scanner.dropKey
  let scanner := match scanner.outerKeys with
    | [] => scanner
    | key :: outerKeys => { scanner with key, outerKeys }
  return ((scanner.allowKey false).skip 1).emit token

/-- A comma between the entries of a flow collection. -/
def fetchFlowEntry (scanner : Scanner) : Option Scanner := do
  let scanner ← scanner.dropKey
  return ((scanner.allowKey true).skip 1).emit .flowEntry

/-- A hyphen in front of an entry of a block sequence. -/
def fetchBlockEntry (scanner : Scanner) : Option Scanner := do
  if !scanner.inFlow && !scanner.allowsKey then none
  else
    let scanner ← (scanner.openBlock scanner.cursor.position.column
      scanner.tokens.size .blockSequenceStart).dropKey
    return ((scanner.allowKey true).skip 1).emit .blockEntry

/-- A question mark in front of a key. -/
def fetchKey (scanner : Scanner) : Option Scanner := do
  if !scanner.inFlow && !scanner.allowsKey then none
  else
    let scanner ← (scanner.openBlock scanner.cursor.position.column
      scanner.tokens.size .blockMappingStart).dropKey
    return ((scanner.allowKey !scanner.inFlow).skip 1).emit .key

/-- A colon in front of a value.  If a simple key is possible, it is one. -/
def fetchValue (scanner : Scanner) : Option Scanner :=
  match scanner.key with
  | some key =>
    let scanner := (scanner.insert key.number .key).openBlock
      key.position.column key.number .blockMappingStart
    some (({ scanner with key := none, allowsKey := false }.skip 1).emit .value)
  | none =>
    if !scanner.inFlow && !scanner.allowsKey then none
    else
      let scanner := scanner.openBlock scanner.cursor.position.column
        scanner.tokens.size .blockMappingStart
      some (((scanner.allowKey !scanner.inFlow).skip 1).emit .value)

/-- An anchor or an alias: a name behind its mark, with nothing behind the name
that could belong to it. -/
def fetchName (scanner : Scanner) (token : List Char → Token) :
    Option Scanner := do
  let scanner ← scanner.keepKey
  let cursor := scanner.cursor.skip 1
  let name := cursor.text.takeWhile isNameLetter
  let behind := cursor.skip name.length
  if name ≠ [] && (atGap behind.text ||
      atOneOf ['?', ':', ',', ']', '\x7d', '%', '@', '\x60'] behind.text) then
    return ((scanner.allowKey false).moveTo behind).emit (token name)
  else none

def fetchTag (scanner : Scanner) : Option Scanner := do
  let scanner ← scanner.keepKey
  let (tag, rest) ← writtenTag scanner.inFlow scanner.cursor.text
  return ((scanner.allowKey false).moveTo (scanner.cursor.skipTo rest)).emit
    (.tag tag)

def fetchBlockScalar (scanner : Scanner) (literal : Bool) :
    Option Scanner := do
  let scanner ← scanner.dropKey
  let (content, cursor) ←
    blockScalar literal scanner.indents.head? scanner.cursor
  let style := if literal then Style.literal else Style.folded
  return ((scanner.allowKey true).moveTo cursor).emit (.scalar style content)

def fetchQuoted (scanner : Scanner) (quote : Quote) : Option Scanner := do
  let scanner ← scanner.keepKey
  let (content, cursor) ← quotedScalar quote scanner.cursor
  let style := match quote with
    | .single => Style.singleQuoted
    | .double => Style.doubleQuoted
  return ((scanner.allowKey false).moveTo cursor).emit (.scalar style content)

/-- A plain scalar.  If line breaks were read behind it, a simple key is
allowed again. -/
def fetchPlain (scanner : Scanner) : Option Scanner := do
  let scanner ← scanner.keepKey
  let scalar ←
    plainScalar scanner.inFlow scanner.contentIndent scanner.cursor
  return ((scanner.allowKey scalar.gap.hasBreak).moveTo scalar.cursor).emit
    (.scalar .plain scalar.content)

/-- The characters that begin no plain scalar. -/
def indicators : List Char :=
  ['-', '?', ':', ',', '[', ']', '\x7b', '\x7d', '#', '&', '*', '!', '|', '>',
    '\'', '"', '%', '@', '\x60']

/-- Whether a plain scalar begins here.  Three indicators begin one if no gap
follows, two of them only outside flow collections. -/
def beginsPlain (inFlow : Bool) : List Char → Bool
  | [] => false
  | letter :: rest =>
    (!isSpace letter && !isBreak letter && !indicators.contains letter) ||
      (letter = '-' && !atOneOf [' ', '\t'] rest) ||
      (!inFlow && (letter = '?' || letter = ':') && !atGap rest)

/-- Read the token at the cursor, which is behind all blanks. -/
def fetchHere (scanner : Scanner) : Option Scanner :=
  let text := scanner.cursor.text
  let atMargin := scanner.cursor.position.column = 0
  match text with
  | [] => scanner.fetchStreamEnd
  | letter :: rest =>
    if atMargin && letter = '%' then scanner.fetchDirective
    else if atMargin && atDocumentMarker text then
      scanner.fetchDocumentMarker
        (if letter = '-' then .documentStart else .documentEnd)
    else if letter = '[' then scanner.fetchFlowStart .flowSequenceStart
    else if letter = '\x7b' then scanner.fetchFlowStart .flowMappingStart
    else if letter = ']' then scanner.fetchFlowEnd .flowSequenceEnd
    else if letter = '\x7d' then scanner.fetchFlowEnd .flowMappingEnd
    else if letter = ',' then scanner.fetchFlowEntry
    else if letter = '-' && atGap rest then scanner.fetchBlockEntry
    else if letter = '?' && (scanner.inFlow || atGap rest) then
      scanner.fetchKey
    else if letter = ':' && (scanner.inFlow || atGap rest) then
      scanner.fetchValue
    else if letter = '*' then scanner.fetchName .alias
    else if letter = '&' then scanner.fetchName .anchor
    else if letter = '!' then scanner.fetchTag
    else if letter = '|' && !scanner.inFlow then scanner.fetchBlockScalar true
    else if letter = '>' && !scanner.inFlow then scanner.fetchBlockScalar false
    else if letter = '\'' then scanner.fetchQuoted .single
    else if letter = '"' then scanner.fetchQuoted .double
    else if beginsPlain scanner.inFlow text then scanner.fetchPlain
    else none

/-- Read the next token and whatever the indentation in front of it closes. -/
def fetch (scanner : Scanner) : Option Scanner := do
  let scanner ← scanner.skipToToken.expireKeys
  let column := scanner.cursor.position.column
  let scanner ← (scanner.closeBlocks (column < ·)).fetchHere
  scanner.expireKeys

/-! ## All tokens -/

/-- The tokens in front of the first possible simple key.  What lies behind is
not settled yet. -/
def settled (scanner : Scanner) : List Token :=
  let first := (scanner.key :: scanner.outerKeys).foldl
    (fun first key => key.elim first fun key => min first key.number)
    scanner.tokens.size
  scanner.tokens.toList.take first

/-- Continue to read tokens, at most `bound` of them.  At a fault only the
settled ones count. -/
def tokensFrom : (bound : Nat) → Scanner → List Token
  | 0, scanner => scanner.settled
  | bound + 1, scanner =>
    match scanner.fetch with
    | none => scanner.settled
    | some next =>
      if next.tokens.back? = some .streamEnd then next.tokens.toList
      else tokensFrom bound next

end Scanner

/-- The tokens of a text up to its end, or up to the first fault.  Only the
former end with the end of the stream.  A text with a character that is not
allowed has none. -/
def tokens (text : List Char) : List Token :=
  if text.all isAllowed then
    Scanner.tokensFrom (text.length + 1) { cursor := .start text }
  else []

end Metastring.Yaml
