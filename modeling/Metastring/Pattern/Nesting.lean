import Metastring.Pattern.Fault

/-!
# Parts inside each other

Groups, classes, repetitions, sequences and choices lie inside each other, and
only so many of them may do so.  A nesting is a list of such parts, each with
the nesting inside it.
-/

namespace Metastring.Pattern

/-- Parts one after the other, and what lies inside them. -/
inductive Nesting where
  | none
  | part (span : Span) (inner rest : Nesting)
deriving Inhabited

namespace Nesting

/-- A part with others inside it. -/
def around (span : Span) (inner : Nesting) : Nesting :=
  part span inner none

def append : Nesting → Nesting → Nesting
  | none, second => second
  | part span inner rest, second => part span inner (rest.append second)

def join (nestings : List Nesting) : Nesting :=
  nestings.foldr (fun first rest => first.append rest) none

/-- The first part that lies inside more than the given number of parts, itself
included. -/
def deeper? (limit : Nat) : Nesting → Option Span
  | none => Option.none
  | part span inner rest =>
    match limit with
    | 0 => some span
    | limit + 1 => (inner.deeper? limit).or (rest.deeper? (limit + 1))

/-- The number of parts that may lie inside each other. -/
def depthLimit : Nat := 250

end Nesting

end Metastring.Pattern
