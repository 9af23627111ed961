import Metastring.Pattern.Bytes
import Metastring.Pattern.Expression

/-!
# The size of matching machines

A machine that finds an expression in a text reads the bytes of the text.  It
is built in two directions, and neither may be too large.  A machine consists
of states, most of which have the same size; branches and sets take more.
-/

namespace Metastring.Pattern

def stateSize : Nat := 32

def branchSize : Nat := 4

/-- The bytes that a range of bytes takes in a state for several of them. -/
def rangeSize : Nat := 8

/-- The size of a state for ranges of bytes. -/
def rangesSize (count : Nat) : Nat :=
  stateSize + rangeSize * count

/-- The size of a state that branches. -/
def unionSize (count : Nat) : Nat :=
  stateSize + branchSize * count

/-- The size of the machine for a set.  Forward, ends that are equal are shared,
and backward, beginnings. -/
def lettersSize (isForward : Bool) (letters : Letters) : Nat :=
  if letters.isAscii then stateSize + rangesSize letters.length
  else
    let sequences := byteSequences letters
    if isForward then
      let states := (leftSequences 4 sequences).eraseDups
      states.foldr (fun left size => rangesSize (followers left).length + size)
        stateSize
    else
      unionSize sequences.length + stateSize +
        stateSize * (beginnings sequences).eraseDups.length

/-! ## Choices of literals -/

/-- The texts that follow each first byte. -/
abbrev Branches := List (Nat × List (List Nat))

def addText (byte : Nat) (text : List Nat) : Branches → Branches
  | [] => [(byte, [text])]
  | (other, texts) :: rest =>
    if other = byte then (other, texts ++ [text]) :: rest
    else (other, texts) :: addText byte text rest

/-- The branches of several texts.  An empty text separates those before it
from those behind it, as it takes precedence over the latter. -/
def branchesFrom (finished : List Branches) (opened : Branches) :
    List (List Nat) → List Branches
  | [] => finished ++ [opened]
  | [] :: rest =>
    if opened = [] && finished ≠ [] && finished.all (· = []) then
      branchesFrom finished opened rest
    else branchesFrom (finished ++ [opened]) [] rest
  | (byte :: text) :: rest =>
    branchesFrom finished (addText byte text opened) rest

/-- The size of the machine for a choice of texts behind their common
beginning; a text has at most `length` bytes left. -/
def textsSize : (length : Nat) → List (List Nat) → Nat
  | 0, _ => 0
  | length + 1, texts =>
    if texts.all (· = []) then 0
    else
      let groups := branchesFrom [] [] texts
      let used := groups.filter (· ≠ [])
      unionSize (used.length + groups.length - 1) +
        (used.map fun branches =>
          (if branches.length = 1 then stateSize
          else rangesSize branches.length) +
          (branches.map fun (_, texts) => textsSize length texts).sum).sum

def literalBytes? : Expression → Option (List Nat)
  | .literal letters => some (letters.flatMap fun letter =>
    codeBytes letter.toNat)
  | _ => none

/-- The size of the machine for a choice of literals. -/
def literalsSize (isForward : Bool) (literals : List (List Nat)) : Nat :=
  let texts := if isForward then literals else literals.map List.reverse
  stateSize + textsSize ((texts.map List.length).foldl max 0 + 1) texts

/-! ## Expressions -/

namespace Expression

/-- The size of the machine for a repetition of a part whose machine has the
given size. -/
def repetitionSize (inner : Expression) (least : Nat) (most : Option Nat)
    (size : Nat) : Nat :=
  match most with
  | none =>
    if least ≠ 0 then least * size + unionSize 2
    else if inner.shortest?.any (0 < ·) then size + unionSize 2
    else size + unionSize 2 + unionSize 2 + stateSize
  | some most =>
    if least = most then least * size
    else if least = 0 && most = 1 then size + unionSize 2 + stateSize
    else
      (if least = 0 then stateSize else least * size) + stateSize +
        (most - least) * (size + unionSize 2)

/-- The size of the machine for an expression, which may be the rest of a
choice.  Only forward, groups are captured. -/
def size (isForward : Bool) (isRest : Bool) : Expression → Nat
  | empty => stateSize
  | literal letters => stateSize * (letters.map Char.utf8Size).sum
  | oneOf _ letters => lettersSize isForward letters
  | assertion _ _ => stateSize
  | repetition inner least most _ =>
    repetitionSize inner least most (inner.size isForward false)
  | capture _ inner =>
    inner.size isForward false + if isForward then 2 * stateSize else 0
  | sequence first rest =>
    first.size isForward false + rest.size isForward false
  | choice first rest =>
    let sizes := first.size isForward false + rest.size isForward true
    if isRest then sizes
    else
      let all := first :: rest.alternatives
      match all.mapM literalBytes? with
      | some literals => literalsSize isForward literals
      | none => unionSize all.length + stateSize + sizes

/-- The size of the whole machine, which finds an expression anywhere in a text
unless the expression is bound to the end where reading begins. -/
def machineSize (isForward : Bool) (expression : Expression) : Nat :=
  let isBound :=
    if isForward then expression.beginsWith .textStart
    else expression.endsWith .textEnd
  let entry :=
    if isBound then stateSize else unionSize 2 + stateSize + rangesSize 1
  (capture 0 expression).size isForward false + stateSize + entry

/-- The size that a machine must not exceed. -/
def sizeLimit : Nat := 10485760

def isTooLarge (isForward : Bool) (expression : Expression) : Bool :=
  sizeLimit < expression.machineSize isForward

end Expression

end Metastring.Pattern
