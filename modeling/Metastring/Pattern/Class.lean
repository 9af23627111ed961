import Metastring.Pattern.Escape
import Metastring.Pattern.Nesting

/-!
# Classes of characters

A class is written between brackets.  It holds characters, ranges, named sets
and further classes; operations between them apply from left to right.  Classes
may be nested, so the classes around the one that is being read are kept.
-/

namespace Metastring.Pattern

/-- The characters that a part of a class selects, with the faults that count
only if the whole text is well-formed. -/
structure Selection where
  letters : Letters
  span : Span
  faults : List Fault := []
  /-- Whether both cases of all letters are known to be selected. -/
  isFolded : Bool := false
  nesting : Nesting := .none
deriving Inhabited

namespace Selection

/-- Either of two selections, one written behind the other. -/
def union (first second : Selection) : Selection where
  letters := first.letters ++ second.letters
  span := ⟨first.span.start, second.span.stop⟩
  faults := first.faults ++ second.faults
  isFolded := first.isFolded && second.isFolded
  nesting := first.nesting.append second.nesting

/-- A selection as a part that lies around its own parts. -/
def nested (selection : Selection) : Selection :=
  { selection with
    nesting := .around selection.span selection.nesting }

/-- Any of several selections in front of the rest of the text. -/
def ofParts (rest : List Char) : List Selection → Selection
  | [] => { letters := [], span := .inFront rest, isFolded := true }
  | [part] => part
  | part :: others => (others.foldl union part).nested

/-- The selection with both cases of its letters, where case does not count.
Only ASCII characters are known to have cases. -/
def folded (flags : Flags) (selection : Selection) : Selection :=
  if !flags.ignoresCase || selection.isFolded then selection
  else if flags.isUnicode && selection.letters ≠ [] then
    { selection with
      faults := selection.faults ++ [⟨.caseFolding, [selection.span]⟩] }
  else
    { selection with
      letters := selection.letters.withBothCases, isFolded := true }

/-- The selection, or all other characters.  Without Unicode only ASCII
characters may be left. -/
def finished (flags : Flags) (isNegated : Bool) (selection : Selection) :
    Selection :=
  let folded := selection.folded flags
  let letters :=
    if isNegated then folded.letters.complement else folded.letters
  let faults :=
    if flags.isUnicode || letters.isAscii then folded.faults
    else folded.faults ++ [⟨.brokenText, [selection.span]⟩]
  { folded with letters, faults }

end Selection

/-- The operations between the parts of a class. -/
inductive Operation where
  | inter
  | diff
  | symmDiff
deriving DecidableEq

/-- The operation that comes next, and the text behind it. -/
def operation? : List Char → Option (Operation × List Char)
  | '&' :: '&' :: rest => some (.inter, rest)
  | '-' :: '-' :: rest => some (.diff, rest)
  | '~' :: '~' :: rest => some (.symmDiff, rest)
  | _ => none

def Operation.apply (first second : Letters) : Operation → Letters
  | inter => first.inter second
  | diff => first.diff second
  | symmDiff => (first ++ second).diff (first.inter second)

def Operation.select (flags : Flags) (first second : Selection)
    (operation : Operation) : Selection :=
  let second := second.folded flags
  let first :=
    { first with faults := first.faults ++ second.faults }.folded flags
  { first.union { second with faults := [] } with
    letters := operation.apply first.letters second.letters }.nested

/-- A class whose closing bracket has not been read. -/
structure OpenClass where
  /-- The text from the bracket on. -/
  start : List Char
  /-- What has been read when the first part may come. -/
  opening : Span
  isNegated : Bool
  /-- What stands before the last operation. -/
  left : Option (Operation × Selection) := none
  /-- The parts behind it, last one first. -/
  parts : List Selection := []
deriving Inhabited

namespace OpenClass

def add (part : Selection) (opened : OpenClass) : OpenClass :=
  { opened with parts := part :: opened.parts }

/-- What a class selects so far, in front of the rest of the text. -/
def selection (flags : Flags) (rest : List Char) (opened : OpenClass) :
    Selection :=
  let right := Selection.ofParts rest opened.parts.reverse
  match opened.left with
  | none => right
  | some (operation, left) => operation.select flags left right

def operate (flags : Flags) (operation : Operation) (rest : List Char)
    (opened : OpenClass) : OpenClass :=
  { opened with
    left := some (operation, opened.selection flags rest), parts := [] }

/-- What a class selects whose closing bracket has been read. -/
def closed (flags : Flags) (rest : List Char) (opened : OpenClass) :
    Selection :=
  { opened.selection flags rest with
    span := .between opened.start rest }.nested.finished flags
    opened.isNegated

end OpenClass

/-- A character that means itself, as a part of a class. -/
def literalPart (flags : Flags) (text : List Char) : Selection :=
  let letters := match text with
    | [] => []
    | letter :: _ => Letters.single letter
  let faults :=
    if flags.isUnicode || letters.isAscii then []
    else [⟨.beyondAscii, [.ofFirst text]⟩]
  { letters, span := .ofFirst text, faults }

/-- Read the beginning of a class: its bracket, the sign that negates it, and
the hyphens or the closing bracket that mean themselves there. -/
def beginClass (flags : Flags) (text : List Char) :
    Attempt (OpenClass × List Char) := do
  let unclosed (rest : List Char) : Attempt (List Char) :=
    if rest = [] then faultAt .openClass (.between text rest) else .ok rest
  let rest ← unclosed (flags.skip (text.drop 1))
  let isNegated := rest.head? = some '^'
  let rest ←
    if isNegated then unclosed (flags.skip (rest.drop 1)) else pure rest
  let opened (parts : List (List Char)) (behind : List Char) : OpenClass :=
    { start := text
      opening := .between text behind
      isNegated
      parts := (parts.map (literalPart flags)).reverse }
  match flags.placesWhile (· = '-') false rest with
  | ([], _) =>
    if rest.head? = some ']' then do
      let behind ← unclosed (flags.skip (rest.drop 1))
      return (opened [rest] behind, behind)
    else return (opened [] rest, rest)
  | (_, []) => faultAt .openClass (.inFront text)
  | (hyphens, behind) => return (opened hyphens behind, behind)

/-- Read the name of a set from its bracket on, if there is one. -/
def namedPart? (flags : Flags) (text : List Char) :
    Option (Selection × List Char) := do
  let name ← match text with
    | '[' :: ':' :: name => some name
    | _ => none
  let isNegated := name.head? = some '^'
  let name := if isNegated then name.drop 1 else name
  let letters ← Letters.named? (name.takeWhile (· ≠ ':'))
  match name.dropWhile (· ≠ ':') with
  | ':' :: ']' :: rest =>
    let part : Selection := { letters, span := .between text rest }
    return (part.finished flags isNegated, rest)
  | _ => none

def readClassPrimitive (flags : Flags) :
    List Char → Attempt (Primitive × List Char)
  | [] => faultAt .openClass (.inFront [])
  | '\\' :: rest => readEscape flags ('\\' :: rest)
  | letter :: rest =>
    .ok (⟨.letter letter, .between (letter :: rest) rest, none⟩, rest)

/-- A primitive part as a part of a class. -/
def Primitive.selection (flags : Flags) (primitive : Primitive) :
    Attempt Selection :=
  match primitive.meaning with
  | .claim _ => faultAt .assertionInClass primitive.span
  | .letters letters =>
    .ok { letters, span := primitive.span, faults := primitive.faults }
  | .letter letter =>
    let cause := primitive.fault.or <|
      if flags.isUnicode || letter ≤ '\x7f' then none
      else some Cause.beyondAscii
    .ok {
      letters := .single letter
      span := primitive.span
      faults := { primitive with fault := cause }.faults }

/-- The character that a primitive part means, as an end of a range. -/
def Primitive.rangeEnd (primitive : Primitive) : Attempt Char :=
  match primitive.meaning with
  | .letter letter => .ok letter
  | _ => faultAt .rangeEnd primitive.span

/-- A range between two primitive parts. -/
def rangePart (flags : Flags) (first last : Primitive) : Attempt Selection := do
  let span : Span := ⟨first.span.start, last.span.stop⟩
  let low ← first.rangeEnd
  let high ← last.rangeEnd
  if high < low then faultAt .emptyRange span
  else
    let part := (← first.selection flags).union (← last.selection flags)
    return { part with letters := .between low high }

/-- The character that decides whether a hyphen in front of it means itself.
Where a comment follows, that is the first character of the comment. -/
def decisive? (flags : Flags) (text : List Char) : Option Char :=
  if !flags.ignoresBlanks then text.head?
  else
    match text.dropWhile isBlank with
    | '#' :: comment => (comment.dropWhile isBlank).head?
    | rest => rest.head?

/-- Read a primitive part or a range; `opening` begins the class around it. -/
def readRange (flags : Flags) (opening : Span) (text : List Char) :
    Attempt (Selection × List Char) := do
  let (first, rest) ← readClassPrimitive flags text
  match flags.skip rest with
  | [] => faultAt .openClass opening
  | '-' :: behind =>
    if decisive? flags behind ∈ [some ']', some '-'] then
      return (← first.selection flags, rest)
    else
      match flags.skip behind with
      | [] => faultAt .openClass opening
      | behind => do
        let (last, rest) ← readClassPrimitive flags behind
        return (← rangePart flags first last, rest)
  | _ => return (← first.selection flags, rest)

/-- Read the rest of a class that is nested in the classes `outer`. -/
def readClassFrom (flags : Flags) :
    (fuel : Nat) → OpenClass → (outer : List OpenClass) → List Char →
      Attempt (Selection × List Char)
  | 0, opened, _, _ => faultAt .openClass opened.opening
  | fuel + 1, opened, outer, text =>
    match flags.skip text with
    | [] => faultAt .openClass opened.opening
    | '[' :: rest =>
      match namedPart? flags ('[' :: rest) with
      | some (part, rest) =>
        readClassFrom flags fuel (opened.add part) outer rest
      | none => do
        let (inner, rest) ← beginClass flags ('[' :: rest)
        readClassFrom flags fuel inner (opened :: outer) rest
    | ']' :: rest =>
      let part := opened.closed flags rest
      match outer with
      | [] => .ok (part, rest)
      | opened :: outer =>
        readClassFrom flags fuel (opened.add part) outer rest
    | text =>
      match operation? text with
      | some (operation, rest) =>
        readClassFrom flags fuel (opened.operate flags operation rest) outer
          rest
      | none => do
        let (part, rest) ← readRange flags opened.opening text
        readClassFrom flags fuel (opened.add part) outer rest

def readClass (flags : Flags) (text : List Char) :
    Attempt (Selection × List Char) := do
  let (opened, rest) ← beginClass flags text
  readClassFrom flags (rest.length + 1) opened [] rest

end Metastring.Pattern
