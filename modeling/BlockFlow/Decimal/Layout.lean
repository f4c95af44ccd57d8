import BlockFlow.Decimal.Numeral
import BlockFlow.Decimal.Shortest

/-!
# Writing floating-point numbers

Every number is written with the shortest digits that read back. A `NumberStyle` decides how
they are laid out.
-/

set_option autoImplicit false

namespace BlockFlow

/-- How the digits of a number are laid out. -/
structure NumberStyle where
  /-- Which of two equally close decimals is written. -/
  tie : Tie
  /-- The exponents of the leading digit, first and last, for which no exponent is written; all
  of them if there are no bounds. -/
  positional : Option (Int × Int)
  /-- Whether a whole number is written with a fraction of zero. -/
  pointZero : Bool

/-- Numbers in settings and reports. -/
def NumberStyle.stored : NumberStyle :=
  { tie := .toEven, positional := some (-5, 15), pointZero := true }

/-- Numbers in messages. -/
def NumberStyle.spoken : NumberStyle :=
  { tie := .up, positional := none, pointZero := false }

namespace NumberStyle

/-- Whether a number whose leading digit has this exponent is written without exponent. -/
def isPositional (style : NumberStyle) (e : Int) : Bool :=
  match style.positional with
  | none => true
  | some (first, last) => first ≤ e && e ≤ last

/-- The fraction of a whole number. -/
def wholeFraction (style : NumberStyle) : Option (List Nat) :=
  if style.pointZero then some [0] else none

/-- The numeral of a decimal with the point after, inside or before its digits. -/
def positionalNumeral (style : NumberStyle) (negative : Bool) (digits : List Nat) (exponent : Int) :
    Numeral :=
  let places := (-exponent).toNat
  if 0 ≤ exponent then
    { negative, whole := digits ++ List.replicate exponent.toNat 0,
      fraction := style.wholeFraction, exponent := none }
  else if places < digits.length then
    { negative, whole := digits.take (digits.length - places),
      fraction := some (digits.drop (digits.length - places)), exponent := none }
  else
    { negative, whole := [0],
      fraction := some (List.replicate (places - digits.length) 0 ++ digits), exponent := none }

/-- The numeral of a decimal with one digit before the point and an exponent. -/
def scientificNumeral (negative : Bool) (digits : List Nat) (e : Int) : Numeral :=
  { negative
    whole := digits.take 1
    fraction := if digits.length ≤ 1 then none else some (digits.drop 1)
    exponent := some (decide (e < 0), Numeral.digitsOf e.natAbs) }

/-- The numeral of a decimal. -/
def numeral (style : NumberStyle) (negative : Bool) (d : Decimal) : Numeral :=
  let digits := Numeral.digitsOf d.coefficient
  let e := d.exponent + digits.length - 1
  if style.isPositional e then style.positionalNumeral negative digits d.exponent
  else scientificNumeral negative digits e

/-- The numeral of a number; infinities and non-numbers have none. -/
def ofFloat? (style : NumberStyle) (x : Float) : Option Numeral :=
  let bits := x.toBits
  let negative := Binary.isNegative bits
  if Binary.exponentField bits = 2047 then
    none
  else if Binary.exponentField bits = 0 ∧ Binary.fractionField bits = 0 then
    some { negative, whole := [0], fraction := style.wholeFraction, exponent := none }
  else
    some (style.numeral negative (Decimal.shortest style.tie (Binary.ofBits bits)))

end NumberStyle

/-- A number in a message. -/
def spokenFloat (x : Float) : String :=
  match NumberStyle.spoken.ofFloat? x with
  | some n => n.text
  | none => if x.isNaN then "NaN" else if x < 0 then "-inf" else "inf"

end BlockFlow
