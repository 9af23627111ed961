/-!
# The range of double precision

A numeral is too large for double precision if rounding it to 53 significant
bits, ties to even, leaves the range of finite values.  Everything is computed
with natural numbers.
-/

namespace Metastring

/-- The multiple of a power of two with 53 significant bits that is nearest to
a number; of two equally near ones, the one with the even significand. -/
def roundToDouble (number : Nat) : Nat :=
  let unit := 1 <<< (number.log2 - 52)
  let below := number / unit
  let excess := 2 * (number % unit)
  if excess < unit ∨ (excess = unit ∧ below % 2 = 0) then below * unit
  else (below + 1) * unit

/-- The least number that rounds beyond the largest finite value. -/
def doubleLimit : Nat :=
  ((1 <<< 54) - 1) <<< 970

/-- Whether the product of a significand and a power of ten, each rounded
before they are multiplied, rounds beyond the largest finite value. -/
def exceedsDouble (significand exponent : Nat) : Bool :=
  significand ≠ 0 &&
    (308 < exponent ||
      doubleLimit ≤
        roundToDouble significand * roundToDouble (Nat.pow 10 exponent))

/-- Whether the product of a significand and a power of ten rounds beyond the
largest finite value.  The number of digits settles it unless it is close. -/
def overflowsDouble (significand : Nat) (exponent : Int) : Bool :=
  let length := exponent + (Nat.toDigits 10 significand).length
  significand ≠ 0 && 300 < length &&
    (310 < length ||
      doubleLimit * Nat.pow 10 (-exponent).toNat ≤
        significand * Nat.pow 10 exponent.toNat)

end Metastring
