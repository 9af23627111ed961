import Metastring.Decimal
import Metastring.Magnitude

/-!
# What plain YAML content denotes

The words for truth values and for null, integers in four bases, and
floating-point numbers.  Content that is none of these is text.
-/

namespace Metastring.Yaml

def flag? (content : List Char) : Option Bool :=
  let word := String.ofList content
  if ["true", "True", "TRUE"].contains word then some true
  else if ["false", "False", "FALSE"].contains word then some false
  else none

def isNull (content : List Char) : Bool :=
  ["null", "Null", "NULL", "~"].contains (String.ofList content)

/-! ## Integers -/

/-- A number without a sign: hexadecimal, octal and binary behind a mark, or
decimal without superfluous leading zeros. -/
def magnitude? : List Char → Option Nat
  | '0' :: 'x' :: digits => digits? 16 digits
  | '0' :: 'o' :: digits => digits? 8 digits
  | '0' :: 'b' :: digits => digits? 2 digits
  | '0' :: _ :: _ => none
  | digits => digits? 10 digits

/-- A number with an optional plus sign. -/
def natural? : List Char → Option Nat
  | '+' :: letters => magnitude? letters
  | letters => magnitude? letters

/-- Whether content denotes an integer.  Integers take 128 bits, without a sign
or with one. -/
def isInteger : List Char → Bool
  | '-' :: letters => (magnitude? letters).any (· ≤ 1 <<< 127)
  | letters => (natural? letters).any (· < 1 <<< 128)

/-! ## Floating-point numbers -/

def isDigit (letter : Char) : Bool :=
  '0' ≤ letter && letter ≤ '9'

/-- The exponent behind its mark: decimal digits with an optional sign. -/
def exponent? : List Char → Option Int
  | '-' :: digits => (digits? 10 digits).map fun value => -(value : Int)
  | '+' :: digits => (digits? 10 digits).map Int.ofNat
  | digits => (digits? 10 digits).map Int.ofNat

/-- Whether a text is a numeral, perhaps with a fraction and an exponent, in
the range of double precision. -/
def isFiniteNumeral (letters : List Char) : Bool :=
  let whole := letters.takeWhile isDigit
  let (fraction, rest) := match letters.dropWhile isDigit with
    | '.' :: rest => (rest.takeWhile isDigit, rest.dropWhile isDigit)
    | rest => ([], rest)
  let exponent := match rest with
    | [] => some 0
    | letter :: rest =>
      if letter = 'e' ∨ letter = 'E' then exponent? rest else none
  match digits? 10 (whole ++ fraction), exponent with
  | some significand, some exponent =>
    !overflowsDouble significand (exponent - fraction.length)
  | _, _ => false

/-- Whether content denotes a floating-point number. -/
def isFloat (content : List Char) : Bool :=
  let word := String.ofList content
  [".inf", ".Inf", ".INF", "+.inf", "+.Inf", "+.INF", "-.inf", "-.Inf",
      "-.INF", ".nan", ".NaN", ".NAN"].contains word ||
    match content with
    | '+' :: letters | '-' :: letters => isFiniteNumeral letters
    | letters => isFiniteNumeral letters

end Metastring.Yaml
