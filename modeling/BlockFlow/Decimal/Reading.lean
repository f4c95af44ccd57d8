import BlockFlow.Decimal.Numeral
import BlockFlow.Size

/-!
# Reading floating-point numbers

A numeral is read with one multiplication or division by a power of ten, so that the result is
not always the closest number. Digits are collected as long as they fit a 64-bit word; those that
do not only count for the magnitude.
-/

set_option autoImplicit false

namespace BlockFlow.Numeral

/-- The digits collected so far and the power of ten they are to be multiplied by. -/
structure Significand where
  digits : Nat
  exponent : Int
  deriving DecidableEq, Repr

namespace Significand

/-- Collects the digits of a whole part. From the first digit that does not fit on, each digit
raises the exponent. -/
def addWhole (s : Significand) : List Nat → Significand
  | [] => s
  | d :: ds =>
    if 10 * s.digits + d < wordBound then
      addWhole { s with digits := 10 * s.digits + d } ds
    else
      { s with exponent := s.exponent + (d :: ds).length }

/-- Collects the digits of a fraction, up to the first that does not fit. -/
def addFraction (s : Significand) : List Nat → Significand
  | [] => s
  | d :: ds =>
    if 10 * s.digits + d < wordBound then
      addFraction { digits := 10 * s.digits + d, exponent := s.exponent - 1 } ds
    else
      s

end Significand

/-- The significand of a numeral and its power of ten. -/
def significand (n : Numeral) : Significand :=
  let s := (Significand.mk 0 0).addWhole n.whole
  let s := s.addFraction (n.fraction.getD [])
  { s with exponent := s.exponent + n.exponentValue }

/-- Largest power of ten that a number is multiplied or divided by at once. -/
def largestPower : Nat := 308

/-- A power of ten. -/
def powerOfTen (e : Nat) : Float := Float.ofScientific 1 false e

/-- The number times `10 ^ e`, or nothing if that is too large. A power beyond the largest is
taken in steps, which end when nothing of the number is left. -/
def scaleBy (x : Float) (e : Int) : Nat → Option Float
  | 0 => some 0
  | fuel + 1 =>
    if e.natAbs ≤ largestPower then
      if 0 ≤ e then
        let y := x * powerOfTen e.natAbs
        if y.isInf then none else some y
      else
        some (x / powerOfTen e.natAbs)
    else if x == 0 then
      some x
    else if 0 ≤ e then
      none
    else
      scaleBy (x / powerOfTen largestPower) (e + largestPower) fuel

/-- The floating-point number that a numeral is read as. No number has more than three such
steps in it. -/
def toFloat? (n : Numeral) : Option Float :=
  (scaleBy (Float.ofNat n.significand.digits) n.significand.exponent 4).map fun x =>
    if n.negative then -x else x

end BlockFlow.Numeral
