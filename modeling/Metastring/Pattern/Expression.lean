import Metastring.Pattern.Basic

/-!
# Expressions

An expression is a pattern with repetitions still written as such.  The
functions that build expressions keep them in a normal form: sequences hold no
sequences, empty texts or adjacent literals, choices hold no choices, choices
between characters are sets, and what all alternatives begin with is written
once.
-/

namespace Metastring.Pattern

/-- What a pattern is written as. -/
inductive Expression where
  | empty
  | literal (letters : List Char)
  /-- A character of a set.  Sets of bytes are told from sets of characters. -/
  | oneOf (isBytes : Bool) (letters : Letters)
  /-- An assertion; those about words beyond ASCII cannot be checked. -/
  | assertion (claim : Assertion) (isKnown : Bool)
  | repetition (inner : Expression) (least : Nat) (most : Option Nat)
      (prefersShort : Bool)
  | capture (number : Nat) (inner : Expression)
  /-- A first part and the other parts. -/
  | sequence (first rest : Expression)
  /-- A first alternative and the other ones. -/
  | choice (first rest : Expression)
deriving DecidableEq, Inhabited

namespace Expression

/-! ## Sequences -/

/-- The parts of a sequence.  Everything else is a sequence of itself. -/
def parts : Expression → List Expression
  | empty => []
  | sequence first rest => first :: rest.parts
  | part => [part]

def ofParts : List Expression → Expression
  | [] => empty
  | [part] => part
  | part :: rest => sequence part (ofParts rest)

/-- Put a part in front of others; two literals become one. -/
def consPart : Expression → List Expression → List Expression
  | literal first, literal second :: rest => literal (first ++ second) :: rest
  | part, rest => part :: rest

/-- Expressions one after the other. -/
def ofSequence (expressions : List Expression) : Expression :=
  ofParts ((expressions.flatMap parts).foldr consPart [])

/-! ## Choices -/

/-- The alternatives of a choice.  Everything else is a choice of itself. -/
def alternatives : Expression → List Expression
  | choice first rest => first :: rest.alternatives
  | alternative => [alternative]

/-- Nothing at all, not even the empty text. -/
def nothing : Expression :=
  oneOf true []

/-- The choice with the given alternatives. -/
def ofAlternatives : List Expression → Expression
  | [] => nothing
  | [alternative] => alternative
  | alternative :: rest => choice alternative (ofAlternatives rest)

/-- A character of a set. -/
def ofLetters (isBytes : Bool) (letters : Letters) : Expression :=
  let letters := letters.canonical
  if letters = [] then nothing
  else
    match letters.only? with
    | some letter => literal [letter]
    | none => oneOf isBytes letters

/-- The only character of a literal, if it has just one. -/
def onlyLetter? : Expression → Option Char
  | literal [letter] => some letter
  | _ => none

/-- The set of a character of a set. -/
def letters? : Expression → Option Letters
  | oneOf _ letters => some letters
  | _ => none

/-- The set that several expressions stand for together, if all of them are
characters or all of them are sets. -/
def jointLetters? (expressions : List Expression) : Option Letters :=
  ((expressions.mapM onlyLetter?).map fun letters =>
    letters.flatMap Letters.single).or
  ((expressions.mapM letters?).map List.flatten)

/-- How many parts two lists begin with in common. -/
def commonLength : List Expression → List Expression → Nat
  | first :: rest, other :: others =>
    if first = other then commonLength rest others + 1 else 0
  | _, _ => 0

def isSequence : Expression → Bool
  | sequence _ _ => true
  | _ => false

/-- The parts that all of several sequences begin with. -/
def commonParts : List Expression → List Expression
  | [] => []
  | first :: rest =>
    if (first :: rest).all isSequence then
      first.parts.take <| rest.foldl
        (fun length other => min length (commonLength first.parts other.parts))
        first.parts.length
    else []

/-- Any of several expressions.  Each step takes away what they begin with in
common, and `fuel` bounds the number of steps. -/
def ofChoicesWithin : (fuel : Nat) → List Expression → Expression
  | 0, expressions => ofAlternatives expressions
  | fuel + 1, expressions =>
    match expressions.flatMap alternatives with
    | [] => nothing
    | [alternative] => alternative
    | expressions =>
      match jointLetters? expressions, commonParts expressions with
      | some letters, _ => ofLetters false letters
      | none, [] => ofAlternatives expressions
      | none, common =>
        ofSequence (common ++ [ofChoicesWithin fuel
          (expressions.map fun expression =>
            ofSequence (expression.parts.drop common.length))])

/-- Any of several expressions. -/
def ofChoices (expressions : List Expression) : Expression :=
  let fuel := expressions.foldr (fun expression fuel =>
    expression.parts.length + 1 + fuel) 1
  ofChoicesWithin fuel expressions

/-! ## Repetitions -/

/-- Whether an expression only describes the empty text. -/
def readsNothing : Expression → Bool
  | empty => true
  | assertion _ _ => true
  | literal _ => false
  | oneOf _ _ => false
  | repetition inner _ _ _ => inner.readsNothing
  | capture _ inner => inner.readsNothing
  | sequence first rest => first.readsNothing && rest.readsNothing
  | choice first rest => first.readsNothing && rest.readsNothing

/-- Repeat an expression at least `least` times and at most `most` times, if
there is a limit.  More than one empty text is not needed. -/
def repeated (inner : Expression) (least : Nat) (most : Option Nat)
    (prefersShort : Bool) : Expression :=
  let (least, most) :=
    if inner.readsNothing then (min least 1, some (min (most.getD 1) 1))
    else (least, most)
  if most = some 0 then empty
  else if least = 1 && most = some 1 then inner
  else repetition inner least most prefersShort

/-! ## Properties -/

/-- The length of the shortest text, in bytes, unless there may be none. -/
def shortest? : Expression → Option Nat
  | empty => some 0
  | assertion _ _ => some 0
  | literal letters => some (letters.map Char.utf8Size).sum
  | oneOf _ letters => letters.head?.map fun range =>
    (Char.ofNat range.1).utf8Size
  | repetition inner least _ _ => inner.shortest?.map (· * least)
  | capture _ inner => inner.shortest?
  | sequence first rest => do return (← first.shortest?) + (← rest.shortest?)
  | choice first rest => do return min (← first.shortest?) (← rest.shortest?)

/-- Whether all assertions can be checked. -/
def isKnown : Expression → Bool
  | empty => true
  | literal _ => true
  | oneOf _ _ => true
  | assertion _ isKnown => isKnown
  | repetition inner _ _ _ => inner.isKnown
  | capture _ inner => inner.isKnown
  | sequence first rest => first.isKnown && rest.isKnown
  | choice first rest => first.isKnown && rest.isKnown

/-- Whether an assertion holds where any described text begins. -/
def beginsWith (claim : Assertion) : Expression → Bool
  | assertion other _ => other = claim
  | repetition inner least _ _ => least ≠ 0 && inner.beginsWith claim
  | capture _ inner => inner.beginsWith claim
  | sequence first rest =>
    first.beginsWith claim || (first.readsNothing && rest.beginsWith claim)
  | choice first rest => first.beginsWith claim && rest.beginsWith claim
  | empty => false
  | literal _ => false
  | oneOf _ _ => false

/-- Whether an assertion holds where any described text ends. -/
def endsWith (claim : Assertion) : Expression → Bool
  | assertion other _ => other = claim
  | repetition inner least _ _ => least ≠ 0 && inner.endsWith claim
  | capture _ inner => inner.endsWith claim
  | sequence first rest =>
    rest.endsWith claim || (rest.readsNothing && first.endsWith claim)
  | choice first rest => first.endsWith claim && rest.endsWith claim
  | empty => false
  | literal _ => false
  | oneOf _ _ => false

/-! ## Patterns -/

/-- A number of copies of a pattern, in halves so that none of them lies deep. -/
def copies (pattern : Pattern) (count : Nat) : Pattern :=
  if count = 0 then .empty
  else if count = 1 then pattern
  else
    .sequence (copies pattern (count / 2)) (copies pattern (count - count / 2))
termination_by count
decreasing_by all_goals omega

def atMost (pattern : Pattern) (count : Nat) : Pattern :=
  copies (.choice .empty pattern) count

/-- The pattern of an expression, without any marks. -/
def pattern : Expression → Pattern
  | empty => .empty
  | literal letters =>
    letters.foldr
      (fun letter => .sequence (.place false (Letters.single letter))) .empty
  | oneOf _ letters => .place false letters
  | assertion claim _ => .assertion claim
  | repetition inner least most _ =>
    let further := match most with
      | none => .many inner.pattern
      | some most => atMost inner.pattern (most - least)
    .sequence (copies inner.pattern least) further
  | capture _ inner => inner.pattern
  | sequence first rest => .sequence first.pattern rest.pattern
  | choice first rest => .choice first.pattern rest.pattern

end Expression

end Metastring.Pattern
