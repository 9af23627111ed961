import Metastring.Pattern.Letters

/-!
# Patterns

A pattern describes texts, and the question is whether a part of a given text
is one of them.  It is answered by marks: while the text is read, those places
of the pattern are marked that may stand for the last character read.  Reading
a character moves the marks along the pattern, and a new mark may enter the
pattern everywhere.
-/

namespace Metastring

namespace Pattern

/-- Conditions on the two characters around a position of a text. -/
inductive Assertion where
  | textStart
  | textEnd
  | lineStart
  | lineEnd
  /-- Lines that also end with a carriage return, with or without a line feed. -/
  | returnLineStart
  | returnLineEnd
  | wordBoundary
  | noWordBoundary
  | wordStart
  | wordEnd
  | noWordBefore
  | noWordBehind
deriving DecidableEq, Inhabited

/-- The characters around a position, where there are any. -/
structure Position where
  before : Option Char
  behind : Option Char

def isWord (letter : Option Char) : Bool :=
  letter.any Letters.words.has

def Assertion.holds (position : Position) : Assertion → Bool
  | textStart => position.before.isNone
  | textEnd => position.behind.isNone
  | lineStart => position.before.all (· = '\n')
  | lineEnd => position.behind.all (· = '\n')
  | returnLineStart =>
    position.before.all (· = '\n') ||
      (position.before = some '\r' && position.behind ≠ some '\n')
  | returnLineEnd =>
    position.behind.all (· = '\r') ||
      (position.behind = some '\n' && position.before ≠ some '\r')
  | wordBoundary => isWord position.before != isWord position.behind
  | noWordBoundary => isWord position.before == isWord position.behind
  | wordStart => !isWord position.before && isWord position.behind
  | wordEnd => isWord position.before && !isWord position.behind
  | noWordBefore => !isWord position.before
  | noWordBehind => !isWord position.behind

end Pattern

/-- A pattern whose places for characters may be marked. -/
inductive Pattern where
  | empty
  | assertion (claim : Pattern.Assertion)
  | place (isMarked : Bool) (letters : Pattern.Letters)
  | sequence (first second : Pattern)
  | choice (first second : Pattern)
  | many (inner : Pattern)
deriving Inhabited

namespace Pattern

/-- Whether a pattern describes the empty text at a position. -/
def isSkippable (position : Position) : Pattern → Bool
  | .empty => true
  | .assertion claim => claim.holds position
  | .place _ _ => false
  | .sequence first second =>
    first.isSkippable position && second.isSkippable position
  | .choice first second =>
    first.isSkippable position || second.isSkippable position
  | .many _ => true

/-- Whether a mark has reached the end of a pattern at a position. -/
def isReached (position : Position) : Pattern → Bool
  | .empty => false
  | .assertion _ => false
  | .place isMarked _ => isMarked
  | .sequence first second =>
    second.isReached position ||
      (first.isReached position && second.isSkippable position)
  | .choice first second =>
    first.isReached position || second.isReached position
  | .many inner => inner.isReached position

/-- Move the marks of a pattern over the character behind a position.  A mark
may enter the pattern there. -/
def move (position : Position) (letter : Char) (enters : Bool) :
    Pattern → Pattern
  | .empty => .empty
  | .assertion claim => .assertion claim
  | .place _ letters => .place (enters && letters.has letter) letters
  | .sequence first second =>
    let passes :=
      first.isReached position || (enters && first.isSkippable position)
    .sequence (first.move position letter enters)
      (second.move position letter passes)
  | .choice first second =>
    .choice (first.move position letter enters)
      (second.move position letter enters)
  | .many inner =>
    .many (inner.move position letter (enters || inner.isReached position))

/-- Whether a part of the text is described that ends at a later position or at
this one. -/
def occursFrom (before : Option Char) (pattern : Pattern) : List Char → Bool
  | [] =>
    let position : Position := ⟨before, none⟩
    pattern.isSkippable position || pattern.isReached position
  | letter :: rest =>
    let position : Position := ⟨before, some letter⟩
    pattern.isSkippable position || pattern.isReached position ||
      (pattern.move position letter true).occursFrom (some letter) rest

/-- A number of characters that every described text has at least. -/
def shortest : Pattern → Nat
  | .empty => 0
  | .assertion _ => 0
  | .place _ _ => 1
  | .sequence first second => first.shortest + second.shortest
  | .choice first second => min first.shortest second.shortest
  | .many _ => 0

/-- Whether a part of a text is described by a pattern.  Short texts are
excluded beforehand, as a pattern may be much longer than a text. -/
def occursIn (pattern : Pattern) (text : String) : Bool :=
  pattern.shortest ≤ text.length && pattern.occursFrom none text.toList

end Pattern

end Metastring
