/-!
# Sets of characters

The characters that one place of a pattern may have are given by ranges of code
points.  Ranges may overlap and come in any order, but for the complement they
are put in order first.
-/

namespace Metastring.Pattern

/-- Ranges of code points, both ends included. -/
abbrev Letters := List (Nat × Nat)

namespace Letters

def lastCode : Nat := 0x10FFFF

def single (letter : Char) : Letters :=
  [(letter.toNat, letter.toNat)]

/-- The set of the characters between two others. -/
def between (first last : Char) : Letters :=
  [(first.toNat, last.toNat)]

def has (letters : Letters) (letter : Char) : Bool :=
  letters.any fun (first, last) =>
    first ≤ letter.toNat && letter.toNat ≤ last

/-- The code points from `start` on that ordered ranges leave out. -/
def gapsFrom (start : Nat) : Letters → Letters
  | [] => if start ≤ lastCode then [(start, lastCode)] else []
  | (first, last) :: rest =>
    if start < first then
      (start, first - 1) :: gapsFrom (max start (last + 1)) rest
    else gapsFrom (max start (last + 1)) rest

def complement (letters : Letters) : Letters :=
  gapsFrom 0 (letters.mergeSort fun first second => first.1 ≤ second.1)

def inter (first second : Letters) : Letters :=
  (first.complement ++ second.complement).complement

/-- The characters that belong to the first set alone. -/
def diff (first second : Letters) : Letters :=
  (first.complement ++ second).complement

/-- Join ordered ranges that overlap or follow each other; `range` comes in front
of them. -/
def mergeFrom (range : Nat × Nat) : Letters → Letters
  | [] => [range]
  | (first, last) :: rest =>
    if first ≤ range.2 + 1 then mergeFrom (range.1, max range.2 last) rest
    else range :: mergeFrom (first, last) rest

/-- The same set with as few ranges as possible, in order. -/
def canonical (letters : Letters) : Letters :=
  match letters.mergeSort fun first second => first.1 ≤ second.1 with
  | [] => []
  | range :: rest => mergeFrom range rest

/-- The only character of a set in canonical form, if there is just one. -/
def only? : Letters → Option Char
  | [(first, last)] => if first = last then some (Char.ofNat first) else none
  | _ => none

def isAscii (letters : Letters) : Bool :=
  letters.all fun (_, last) => last < 0x80

/-- A set together with the other case of its ASCII letters. -/
def withBothCases (letters : Letters) : Letters :=
  let shifted (low high : Char) (shift : Nat → Nat) : Letters :=
    (letters.inter (between low high)).map fun (first, last) =>
      (shift first, shift last)
  letters ++ shifted 'a' 'z' (· - 32) ++ shifted 'A' 'Z' (· + 32)

/-! ## Named sets of ASCII characters -/

def digits : Letters := between '0' '9'

def spaces : Letters := between '\t' '\r' ++ single ' '

def alphanumerics : Letters :=
  between 'a' 'z' ++ between 'A' 'Z' ++ digits

def words : Letters := alphanumerics ++ single '_'

def named? (name : List Char) : Option Letters :=
  [("alnum", alphanumerics),
    ("alpha", between 'a' 'z' ++ between 'A' 'Z'),
    ("ascii", between '\x00' '\x7f'),
    ("blank", single '\t' ++ single ' '),
    ("cntrl", between '\x00' '\x1f' ++ single '\x7f'),
    ("digit", digits),
    ("graph", between '!' '~'),
    ("lower", between 'a' 'z'),
    ("print", between ' ' '~'),
    ("punct", between '!' '/' ++ between ':' '@' ++ between '[' '\x60' ++
      between '\x7b' '~'),
    ("space", spaces),
    ("upper", between 'A' 'Z'),
    ("word", words),
    ("xdigit", digits ++ between 'a' 'f' ++ between 'A' 'F')].lookup
    (String.ofList name)

end Letters

end Metastring.Pattern
