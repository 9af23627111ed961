import Metastring.Decimal
import Metastring.Pieces

/-!
# Why a text is no pattern

A fault names its cause and the parts of the text that show it.  Its message
repeats the text and underlines these parts.
-/

namespace Metastring

namespace Pattern

/-- A part of a text, given by the numbers of characters from its two ends to
the end of the text. -/
structure Span where
  start : Nat
  stop : Nat
deriving DecidableEq, Inhabited

namespace Span

/-- The part from the beginning of one rest of the text to that of another. -/
def between (start stop : List Char) : Span :=
  ⟨start.length, stop.length⟩

/-- The empty part in front of a rest of the text. -/
def inFront (rest : List Char) : Span :=
  between rest rest

/-- The first character of a rest of the text. -/
def ofFirst (rest : List Char) : Span :=
  between rest (rest.drop 1)

end Span

/-- The causes for which a text is no pattern. -/
inductive Cause where
  | assertionInClass
  | emptyRange
  | rangeEnd
  | openClass
  | largeNumber
  | noHexDigits
  | noCodePoint
  | hexDigit
  | openEscape
  | unknownEscape
  | danglingNegation
  | repeatedFlag
  | repeatedNegation
  | openFlags
  | unknownFlag
  | repeatedName
  | emptyName
  | nameLetter
  | openName
  | openGroup
  | unopenedGroup
  | emptyCount
  | missingCount
  | openCount
  | nothingToRepeat
  | deepNesting
  | openBoundary
  | unknownBoundary
  | openBoundaryOrCount
  | propertyLetter
  | backreference
  | lookAround
  | beyondAscii
  | brokenText
  | unknownProperty
  | unknownPropertyValue
  | namedSet
  | caseFolding
  /-- Boundaries of words with characters beyond ASCII. -/
  | wordBoundary
  | tooLarge
deriving DecidableEq, Inhabited

def Cause.message : Cause → String
  | assertionInClass => "invalid escape sequence found in character class"
  | emptyRange =>
    "invalid character class range, the start must be <= the end"
  | rangeEnd => "invalid range boundary, must be a literal"
  | openClass => "unclosed character class"
  | largeNumber => "decimal literal invalid"
  | noHexDigits => "hexadecimal literal empty"
  | noCodePoint => "hexadecimal literal is not a Unicode scalar value"
  | hexDigit => "invalid hexadecimal digit"
  | openEscape =>
    "incomplete escape sequence, reached end of pattern prematurely"
  | unknownEscape => "unrecognized escape sequence"
  | danglingNegation => "dangling flag negation operator"
  | repeatedFlag => "duplicate flag"
  | repeatedNegation => "flag negation operator repeated"
  | openFlags => "expected flag but got end of regex"
  | unknownFlag => "unrecognized flag"
  | repeatedName => "duplicate capture group name"
  | emptyName => "empty capture group name"
  | nameLetter => "invalid capture group character"
  | openName => "unclosed capture group name"
  | openGroup => "unclosed group"
  | unopenedGroup => "unopened group"
  | emptyCount =>
    "invalid repetition count range, the start must be <= the end"
  | missingCount => "repetition quantifier expects a valid decimal"
  | openCount => "unclosed counted repetition"
  | nothingToRepeat => "repetition operator missing expression"
  | deepNesting =>
    "exceed the maximum number of nested parentheses/brackets (250)"
  | openBoundary =>
    "special word boundary assertion is either unclosed or contains an " ++
      "invalid character"
  | unknownBoundary =>
    "unrecognized special word boundary assertion, valid choices are: " ++
      "start, end, start-half or end-half"
  | openBoundaryOrCount =>
    "found either the beginning of a special word boundary or a bounded " ++
      "repetition on a \\b with an opening brace, but no closing brace"
  | propertyLetter => "invalid Unicode character class"
  | backreference => "backreferences are not supported"
  | lookAround =>
    "look-around, including look-ahead and look-behind, is not supported"
  | beyondAscii => "Unicode not allowed here"
  | brokenText => "pattern can match invalid UTF-8"
  | unknownProperty => "Unicode property not found"
  | unknownPropertyValue => "Unicode property value not found"
  | namedSet =>
    "Unicode-aware Perl class not found (make sure the unicode-perl " ++
      "feature is enabled)"
  | caseFolding =>
    "Unicode-aware case insensitivity matching is not available (make " ++
      "sure the unicode-case feature is enabled)"
  | wordBoundary => "error building NFA"
  | tooLarge => "Compiled regex exceeds size limit of 10485760 bytes."

/-- A fault: its cause, and the parts of the text that show it.  Faults of the
pattern as a whole are shown by none. -/
structure Fault where
  cause : Cause
  spans : List Span
deriving DecidableEq, Inhabited

/-! ## Messages -/

/-- A line and a column of a text, both counted from zero. -/
structure Place where
  line : Nat
  column : Nat
deriving DecidableEq

/-- The place that is the given number of characters away from the end. -/
def Place.ofDistance (text : List Char) (distance : Nat) : Place :=
  let before := text.take (text.length - distance)
  ⟨before.count '\n', (before.reverse.takeWhile (· ≠ '\n')).length⟩

def Span.first (text : List Char) (span : Span) : Place :=
  .ofDistance text span.start

def Span.last (text : List Char) (span : Span) : Place :=
  .ofDistance text span.stop

/-- The marks below a line from the given column on: for each span its column
and its width, in order. -/
def marksFrom (column : Nat) : List (Nat × Nat) → List Char
  | [] => []
  | (start, width) :: rest =>
    List.replicate (start - column) ' ' ++ List.replicate width '^' ++
      marksFrom (max start column + width) rest

/-- The marks below the line with the given number.  An empty span has a mark
too. -/
def lineMarks (text : List Char) (spans : List Span) (line : Nat) :
    List Char :=
  marksFrom 0 <|
    (spans.filter fun span =>
      (span.first text).line = line && (span.last text).line = line).map
      fun span => ((span.first text).column, max 1 (span.start - span.stop))

/-- The lines of a text.  The end of the last line may be missing. -/
def textLines (text : List Char) : List (List Char) :=
  let lines := pieces '\n' text
  let ended := lines.dropLast.map fun line =>
    if line.getLast? = some '\r' then line.dropLast else line
  ended ++ (lines.drop ended.length).filter (· ≠ [])

/-- The lines of a text from the given number on, each with its marks.  They
are numbered unless there is only one. -/
def markedLinesFrom (text : List Char) (spans : List Span) (width : Nat)
    (number : Nat) : List (List Char) → String
  | [] => ""
  | line :: rest =>
    let label := (decimal (number + 1)).toList
    let label :=
      if width = 0 then List.replicate 4 ' '
      else List.replicate (width - label.length) ' ' ++ label ++ [':', ' ']
    let marks := lineMarks text spans number
    let marked :=
      if marks = [] then []
      else List.replicate label.length ' ' ++ marks ++ ['\n']
    String.ofList (label ++ line ++ ['\n'] ++ marked) ++
      markedLinesFrom text spans width (number + 1) rest

/-- Where a span lies that has several lines. -/
def Span.extent (text : List Char) (span : Span) : String :=
  let first := span.first text
  let last := span.last text
  "on line " ++ decimal (first.line + 1) ++ " (column " ++
    decimal (first.column + 1) ++ ") through line " ++
    decimal (last.line + 1) ++ " (column " ++ decimal last.column ++ ")"

/-- The wording of a fault of the given text. -/
def Fault.message (fault : Fault) (text : List Char) : String :=
  if fault.spans = [] then fault.cause.message
  else
    let spans := fault.spans.mergeSort fun first second =>
      second.start ≤ first.start
    let count := text.count '\n' + 1
    let lines (width : Nat) : String :=
      markedLinesFrom text spans width 0 (textLines text)
    let body :=
      if count = 1 then lines 0
      else
        let divider := String.ofList (List.replicate 79 '~') ++ "\n"
        let extents :=
          (spans.filter fun span =>
            (span.first text).line ≠ (span.last text).line).map
            fun span => span.extent text ++ "\n"
        divider ++ lines (decimal count).length ++ divider ++
          String.join extents
    "regex parse error:\n" ++ body ++ "error: " ++ fault.cause.message

end Pattern

end Metastring
