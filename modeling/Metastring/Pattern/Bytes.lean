import Metastring.Pattern.Letters

/-!
# Sets of characters as bytes

The bytes of the characters of a set are given by sequences of ranges: a
character belongs to the set if its bytes belong to the ranges of one sequence,
byte by byte.  The sequences come in the order of the characters.
-/

namespace Metastring.Pattern

/-- Ranges of bytes, one for each byte of a character. -/
abbrev ByteRanges := List (Nat × Nat)

def codeBytes (code : Nat) : List Nat :=
  let tail (shift : Nat) : Nat := 0x80 + code / shift % 0x40
  if code < 0x80 then [code]
  else if code < 0x800 then [0xC0 + code / 0x40, tail 1]
  else if code < 0x10000 then [0xE0 + code / 0x1000, tail 0x40, tail 1]
  else [0xF0 + code / 0x40000, tail 0x1000, tail 0x40, tail 1]

/-- Where a range of code points has to be split first, if its ranges of bytes
are not all there is to it: at the surrogates, where the number of bytes
changes, or where not all further bytes are free.  The second part begins at
the given code point. -/
def splitPoint? (first last : Nat) : Option Nat :=
  if first < 0xE000 && 0xD7FF < last then some 0xE000
  else
    ([0x80, 0x800, 0x10000].find? fun point => first < point && point ≤ last).or
    (if last < 0x80 then none
    else
      [0x40, 0x1000, 0x40000].findSome? fun unit =>
        if first / unit = last / unit then none
        else if first % unit ≠ 0 then some ((first / unit + 1) * unit)
        else if last % unit ≠ unit - 1 then some (last / unit * unit)
        else none)

/-- The sequences for a range of code points, after at most `fuel` splits one
inside the other. -/
def rangeSequences : (fuel : Nat) → (first last : Nat) → List ByteRanges
  | 0, _, _ => []
  | fuel + 1, first, last =>
    if last < first then []
    else
      match splitPoint? first last with
      | some 0xE000 =>
        rangeSequences fuel first 0xD7FF ++ rangeSequences fuel 0xE000 last
      | some point =>
        rangeSequences fuel first (point - 1) ++
          rangeSequences fuel point last
      | none => [(codeBytes first).zip (codeBytes last)]

def byteSequences (letters : Letters) : List ByteRanges :=
  letters.flatMap fun (first, last) => rangeSequences 32 first last

/-- What follows each range that sequences begin with. -/
def followers : List ByteRanges → List ((Nat × Nat) × List ByteRanges)
  | [] => []
  | [] :: rest => followers rest
  | (range :: tail) :: rest =>
    match followers rest with
    | [] => [(range, [tail])]
    | (other, tails) :: groups =>
      if range = other then (range, tail :: tails) :: groups
      else (range, [tail]) :: (other, tails) :: groups

/-- The sequences that are left in the course of reading a character, which has
at most `length` further bytes. -/
def leftSequences : (length : Nat) → List ByteRanges → List (List ByteRanges)
  | 0, _ => []
  | length + 1, sequences =>
    match followers sequences with
    | [] => []
    | groups =>
      sequences :: groups.flatMap fun (_, tails) => leftSequences length tails

/-- The beginnings of sequences, without the empty one. -/
def beginnings (sequences : List ByteRanges) : List ByteRanges :=
  sequences.flatMap fun ranges =>
    (List.range ranges.length).map fun count => ranges.take (count + 1)

end Metastring.Pattern
