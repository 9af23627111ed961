import Metastring.Decimal
import Metastring.Yaml.Cursor

/-!
# Scalars in a YAML text

The content of a scalar is written plainly, between quotes, or as an indented
block.  Plain and quoted content may run over several lines: the gap between
two of its words is kept if it has no line break, and is folded otherwise, one
break into a space and more breaks into one break less.
-/

namespace Metastring.Yaml

/-! ## Gaps -/

/-- A stretch of spaces and line breaks inside a scalar: spaces alone, or a
first line break followed by more of them. -/
inductive Gap where
  | spaces (letters : List Char)
  | lines (first more : List Char)
deriving DecidableEq, Inhabited

namespace Gap

/-- A gap extended by a space.  Behind a line break it only indents. -/
def addSpace (gap : Gap) (letter : Char) : Gap :=
  match gap with
  | spaces letters => spaces (letters ++ [letter])
  | lines first more => lines first more

/-- A gap extended by a line break.  Spaces before it are dropped. -/
def addBreak (gap : Gap) (meaning : List Char) : Gap :=
  match gap with
  | spaces _ => lines meaning []
  | lines first more => lines first (more ++ meaning)

def hasBreak : Gap → Bool
  | spaces _ => false
  | lines _ _ => true

/-- What a gap contributes to the content of its scalar. -/
def content : Gap → List Char
  | spaces letters => letters
  | lines first more =>
    if first = ['\n'] then if more = [] then [' '] else more
    else first ++ more

end Gap

/-- Read a gap.  A tab in the indentation, which has to reach the given column,
is a fault. -/
def gapFrom (indent : Nat) (gap : Gap) (position : Position) :
    List Char → Option (Gap × Cursor)
  | [] => some (gap, ⟨position, []⟩)
  | '\r' :: '\n' :: rest =>
    gapFrom indent (gap.addBreak ['\n']) (position.nextLine ['\r', '\n'])
      rest
  | letter :: rest =>
    if isSpace letter then
      if letter = '\t' && gap.hasBreak && position.column < indent then none
      else
        gapFrom indent (gap.addSpace letter) (position.forward [letter]) rest
    else if isBreak letter then
      gapFrom indent (gap.addBreak (breakMeaning letter))
        (position.nextLine [letter]) rest
    else some (gap, ⟨position, letter :: rest⟩)

/-! ## Plain scalars -/

/-- Split off the plain word that the text begins with.  In a flow collection
its indicators end a word, and a colon before one of them is a fault. -/
def plainWord (inFlow : Bool) :
    List Char → Option (List Char × List Char)
  | [] => some ([], [])
  | letter :: rest =>
    if isSpace letter || isBreak letter then some ([], letter :: rest)
    else if inFlow && letter = ':' &&
        atOneOf [',', '?', '[', ']', '\x7b', '\x7d'] rest then none
    else if letter = ':' && atGap rest then some ([], letter :: rest)
    else if inFlow && [',', '[', ']', '\x7b', '\x7d'].contains letter then
      some ([], letter :: rest)
    else (plainWord inFlow rest).map fun (word, rest) => (letter :: word, rest)

/-- A plain scalar as far as it has been read, with the gap behind it. -/
structure PlainScalar where
  content : List Char
  gap : Gap
  cursor : Cursor
deriving Inhabited

/-- Continue a plain scalar word by word, at most `bound` of them.  It ends at
a document marker, at a comment, where a word is followed by anything but a
gap, and, outside flow collections, where the indentation falls below the given
column. -/
def plainFrom (inFlow : Bool) (indent : Nat) :
    (bound : Nat) → PlainScalar → Option PlainScalar
  | 0, scalar => some scalar
  | bound + 1, scalar =>
    let text := scalar.cursor.text
    if scalar.cursor.position.column = 0 && atDocumentMarker text then
      some scalar
    else if atOneOf ['#'] text then some scalar
    else do
      let (word, rest) ← plainWord inFlow text
      let cursor : Cursor := ⟨scalar.cursor.position.forward word, rest⟩
      let scalar : PlainScalar :=
        if word = [] then scalar
        else ⟨scalar.content ++ scalar.gap.content ++ word, .spaces [], cursor⟩
      if rest = [] || !atGap rest then some scalar
      else do
        let (gap, cursor) ← gapFrom indent (.spaces []) cursor.position rest
        let scalar : PlainScalar := { scalar with gap, cursor }
        if !inFlow && cursor.position.column < indent then some scalar
        else plainFrom inFlow indent bound scalar

def plainScalar (inFlow : Bool) (indent : Nat) (cursor : Cursor) :
    Option PlainScalar :=
  plainFrom inFlow indent (cursor.text.length + 1) ⟨[], .spaces [], cursor⟩

/-! ## Quoted scalars -/

/-- A stretch of quoted content without gaps, and whether it ends with an
escaped line break. -/
structure QuotedWord where
  letters : List Char
  breaks : Bool
  cursor : Cursor
deriving Inhabited

namespace QuotedWord

def prepend (letter : Char) (word : QuotedWord) : QuotedWord :=
  { word with letters := letter :: word.letters }

end QuotedWord

/-- Read a word between single quotes, in which a doubled quote stands for
one. -/
def singleQuotedWord (position : Position) : List Char → QuotedWord
  | [] => ⟨[], false, ⟨position, []⟩⟩
  | '\'' :: '\'' :: rest =>
    (singleQuotedWord (position.forward ['\'', '\'']) rest).prepend '\''
  | letter :: rest =>
    if letter = '\'' || isSpace letter || isBreak letter then
      ⟨[], false, ⟨position, letter :: rest⟩⟩
    else (singleQuotedWord (position.forward [letter]) rest).prepend letter

/-- The character written by a backslash and one other character. -/
def shortEscape? : Char → Option Char
  | '0' => some '\x00'
  | 'a' => some '\x07'
  | 'b' => some '\x08'
  | 't' | '\t' => some '\t'
  | 'n' => some '\n'
  | 'v' => some '\x0b'
  | 'f' => some '\x0c'
  | 'r' => some '\r'
  | 'e' => some '\x1b'
  | ' ' => some ' '
  | '"' => some '"'
  | '/' => some '/'
  | '\\' => some '\\'
  | 'N' => some '\u0085'
  | '_' => some '\u00A0'
  | 'L' => some '\u2028'
  | 'P' => some '\u2029'
  | _ => none

/-- The character with the code point written by hexadecimal digits. -/
def codePoint? (letters : List Char) : Option Char := do
  let code ← digits? 16 letters
  if code.isValidChar then return Char.ofNat code else none

/-- Read a word between double quotes, in which a backslash begins an escape
sequence. -/
def doubleQuotedWord (position : Position) : List Char → Option QuotedWord
  | [] => some ⟨[], false, ⟨position, []⟩⟩
  | '\\' :: '\r' :: '\n' :: rest =>
    some ⟨[], true, ⟨position.nextLine ['\\', '\r', '\n'], rest⟩⟩
  | '\\' :: 'x' :: a :: b :: rest => do
    let letter ← codePoint? [a, b]
    let word ← doubleQuotedWord (position.forward ['\\', 'x', a, b]) rest
    return word.prepend letter
  | '\\' :: 'u' :: a :: b :: c :: d :: rest => do
    let letter ← codePoint? [a, b, c, d]
    let word ←
      doubleQuotedWord (position.forward ['\\', 'u', a, b, c, d]) rest
    return word.prepend letter
  | '\\' :: 'U' :: a :: b :: c :: d :: e :: f :: g :: h :: rest => do
    let letter ← codePoint? [a, b, c, d, e, f, g, h]
    let word ← doubleQuotedWord
      (position.forward ['\\', 'U', a, b, c, d, e, f, g, h]) rest
    return word.prepend letter
  | '\\' :: letter :: rest =>
    if isBreak letter then
      some ⟨[], true, ⟨position.nextLine ['\\', letter], rest⟩⟩
    else do
      let meant ← shortEscape? letter
      let word ← doubleQuotedWord (position.forward ['\\', letter]) rest
      return word.prepend meant
  | letter :: rest =>
    if letter = '\\' then none
    else if letter = '"' || isSpace letter || isBreak letter then
      some ⟨[], false, ⟨position, letter :: rest⟩⟩
    else do
      let word ← doubleQuotedWord (position.forward [letter]) rest
      return word.prepend letter

/-- The two kinds of quotes. -/
inductive Quote where
  | single
  | double
deriving DecidableEq, Inhabited

namespace Quote

def letter : Quote → Char
  | single => '\''
  | double => '"'

def word (quote : Quote) (cursor : Cursor) : Option QuotedWord :=
  match quote with
  | single => some (singleQuotedWord cursor.position cursor.text)
  | double => doubleQuotedWord cursor.position cursor.text

end Quote

/-- Continue quoted content word by word, at most `bound` of them, up to and
with the closing quote.  A document marker or the end of the text inside the
quotes is a fault. -/
def quotedFrom (quote : Quote) :
    (bound : Nat) → (content : List Char) → Cursor →
      Option (List Char × Cursor)
  | 0, _, _ => none
  | bound + 1, content, cursor =>
    if cursor.position.column = 0 && atDocumentMarker cursor.text then none
    else if cursor.text = [] then none
    else do
      let word ← quote.word cursor
      let content := content ++ word.letters
      if atOneOf [quote.letter] word.cursor.text then
        return (content, word.cursor.skip 1)
      else do
        let before := if word.breaks then Gap.lines [] [] else Gap.spaces []
        let (gap, cursor) ←
          gapFrom 0 before word.cursor.position word.cursor.text
        quotedFrom quote bound (content ++ gap.content) cursor

/-- Read quoted content from its opening quote on. -/
def quotedScalar (quote : Quote) (cursor : Cursor) :
    Option (List Char × Cursor) :=
  quotedFrom quote (cursor.text.length + 1) [] (cursor.skip 1)

/-! ## Block scalars -/

/-- What happens to the line breaks at the end of a block. -/
inductive Chomping where
  | strip
  | clip
  | keep
deriving DecidableEq, Inhabited

def chompingMark (cursor : Cursor) : Option (Chomping × Cursor) :=
  match cursor.text with
  | '+' :: _ => some (.keep, cursor.skip 1)
  | '-' :: _ => some (.strip, cursor.skip 1)
  | _ => none

/-- Read the digit that states a block's indentation, if there is one; zero is
a fault. -/
def indentationMark (cursor : Cursor) : Option (Nat × Cursor) :=
  match cursor.text with
  | letter :: _ =>
    if '1' ≤ letter ∧ letter ≤ '9' then
      some (letter.toNat - 48, cursor.skip 1)
    else if letter = '0' then none
    else some (0, cursor)
  | [] => some (0, cursor)

/-- Read the marks in front of a block in either order: its chomping and its
indentation, zero where it is to be found out. -/
def blockMarks (cursor : Cursor) : Option (Chomping × Nat × Cursor) :=
  match chompingMark cursor with
  | some (chomping, cursor) => do
    let (indentation, cursor) ← indentationMark cursor
    return (chomping, indentation, cursor)
  | none => do
    let (indentation, cursor) ← indentationMark cursor
    match if indentation = 0 then none else chompingMark cursor with
    | some (chomping, cursor) => return (chomping, indentation, cursor)
    | none => return (.clip, indentation, cursor)

/-- Empty lines of a block: the breaks they contribute, the widest indentation
among them, and the cursor at the content behind them. -/
structure EmptyLines where
  breaks : List Char
  widest : Nat
  cursor : Cursor
deriving Inhabited

/-- Read the empty lines and the indentation in front of the next content of a
block.  An indentation of zero is still to be found out.  A tab where the
indentation is to continue is a fault. -/
def emptyLinesFrom (indent widest : Nat) (breaks : List Char)
    (position : Position) : List Char → Option EmptyLines
  | [] => some ⟨breaks, max widest position.column, ⟨position, []⟩⟩
  | '\r' :: '\n' :: rest =>
    emptyLinesFrom indent (max widest position.column) (breaks ++ ['\n'])
      (position.nextLine ['\r', '\n']) rest
  | letter :: rest =>
    let indenting := indent = 0 || position.column < indent
    if indenting && letter = ' ' then
      emptyLinesFrom indent widest breaks (position.forward [letter]) rest
    else if indenting && letter = '\t' then none
    else if isBreak letter then
      emptyLinesFrom indent (max widest position.column)
        (breaks ++ breakMeaning letter) (position.nextLine [letter]) rest
    else
      some ⟨breaks, max widest position.column, ⟨position, letter :: rest⟩⟩

def emptyLines (indent : Nat) (cursor : Cursor) : Option EmptyLines :=
  emptyLinesFrom indent 0 [] cursor.position cursor.text

/-- A block as far as it has been read: its content up to the last line, the
break that ends that line, the breaks of the empty lines behind it, and whether
the line begins with a space. -/
structure Block where
  content : List Char := []
  lineBreak : List Char := []
  emptyBreaks : List Char := []
  spaced : Bool := false
deriving Inhabited

namespace Block

/-- What stands between the last line and one that begins with a space or
not.  Folding turns a single break between two lines into a space, unless one
of them begins with a space. -/
def joint (literal : Bool) (block : Block) (spaced : Bool) : List Char :=
  if !literal && block.lineBreak = ['\n'] && !block.spaced && !spaced then
    if block.emptyBreaks = [] then [' '] else block.emptyBreaks
  else block.lineBreak ++ block.emptyBreaks

/-- The content of a block that ends here. -/
def chomped (block : Block) : Chomping → List Char
  | .strip => block.content
  | .clip => block.content ++ block.lineBreak
  | .keep => block.content ++ block.lineBreak ++ block.emptyBreaks

end Block

/-- Continue a block line by line, at most `bound` of them, as long as the
lines are indented to the given column. -/
def blockFrom (literal : Bool) (indent : Nat) :
    (bound : Nat) → Block → Cursor → Option (Block × Cursor)
  | 0, block, cursor => some (block, cursor)
  | bound + 1, block, cursor =>
    if cursor.position.column = indent && cursor.text ≠ [] then do
      let spaced := atOneOf [' ', '\t'] cursor.text
      let line := cursor.text.takeWhile fun letter => !isBreak letter
      let behind := cursor.skip line.length
      let empty ← emptyLines indent behind.skipBreak
      let block : Block :=
        ⟨block.content ++ block.joint literal spaced ++ line,
          behind.breakHere, empty.breaks, spaced⟩
      blockFrom literal indent bound block empty.cursor
    else some (block, cursor)

/-- Read a block from its indicator on.  `parent` is the indentation of the
collection around it, if there is one. -/
def blockScalar (literal : Bool) (parent : Option Nat) (cursor : Cursor) :
    Option (List Char × Cursor) := do
  let (chomping, stated, cursor) ← blockMarks (cursor.skip 1)
  let cursor ← cursor.skipLineEnd
  let statedIndent := if stated = 0 then 0 else parent.getD 0 + stated
  let empty ← emptyLines statedIndent cursor
  let least := parent.elim 1 (· + 1)
  let indent :=
    if statedIndent = 0 then max empty.widest least else statedIndent
  let (block, cursor) ←
    blockFrom literal indent (empty.cursor.text.length + 1)
      { emptyBreaks := empty.breaks } empty.cursor
  return (block.chomped chomping, cursor)

end Metastring.Yaml
