/-!
# Decimal numerals

Sizes and counts are written without sign, padding or leading zeros, and read
with an optional plus sign and any number of leading zeros.
-/

namespace Metastring

def decimal (number : Nat) : String :=
  String.ofList (Nat.toDigits 10 number)

/-- The value of a hexadecimal digit in either case. -/
def hexValue? (letter : Char) : Option Nat :=
  if '0' ≤ letter ∧ letter ≤ '9' then some (letter.toNat - 48)
  else if 'a' ≤ letter ∧ letter ≤ 'f' then some (letter.toNat - 87)
  else if 'A' ≤ letter ∧ letter ≤ 'F' then some (letter.toNat - 55)
  else none

/-- Continue a numeral in the given base: `value` is what the digits so far
denote.  A character that is no digit of the base makes the text no numeral. -/
def digitsFrom? (base value : Nat) : List Char → Option Nat
  | [] => some value
  | letter :: rest =>
    match hexValue? letter with
    | some digit =>
      if digit < base then digitsFrom? base (value * base + digit) rest
      else none
    | none => none

/-- The number denoted by one or more digits of the given base. -/
def digits? (base : Nat) : List Char → Option Nat
  | [] => none
  | letters => digitsFrom? base 0 letters

/-- A number as a 64-bit size, if it is one. -/
def size? (number : Nat) : Option UInt64 :=
  if number < UInt64.size then some (UInt64.ofNat number) else none

/-- Read a 64-bit size: an optional plus sign, then decimal digits. -/
def readSize? : List Char → Option UInt64
  | '+' :: letters => digits? 10 letters >>= size?
  | letters => digits? 10 letters >>= size?

end Metastring
