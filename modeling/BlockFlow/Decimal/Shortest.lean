/-!
# The shortest decimal that reads back

A finite floating-point number stands for all reals that round to it. Among the decimals in that
interval the shortest is chosen, and among those of equal length the closest. Everything is
computed exactly, in natural numbers.
-/

set_option autoImplicit false

namespace BlockFlow

/-- A finite number without its sign, `mantissa * 2 ^ exponent`. -/
structure Binary where
  mantissa : Nat
  exponent : Int
  /-- The gap to the number below is half the gap to the number above. -/
  narrowBelow : Bool
  deriving DecidableEq, Repr

/-- A decimal, `coefficient * 10 ^ exponent`. -/
structure Decimal where
  coefficient : Nat
  exponent : Int
  deriving DecidableEq, Repr

/-- What happens when two decimals of equal length are equally close. -/
inductive Tie where
  | toEven
  | up
  deriving DecidableEq, Repr

namespace Binary

/-- How many values the fraction field can have: two to the 52nd power. -/
def fractionSize : Nat := 4503599627370496

/-- Whether the sign bit is set. -/
def isNegative (bits : UInt64) : Bool := 9223372036854775808 ≤ bits

/-- The exponent field of a bit pattern. All ones mark infinities and non-numbers. -/
def exponentField (bits : UInt64) : Nat := bits.toNat / fractionSize % 2048

/-- The fraction field of a bit pattern. -/
def fractionField (bits : UInt64) : Nat := bits.toNat % fractionSize

/-- The number with the given bits, its sign left out. -/
def ofBits (bits : UInt64) : Binary :=
  let e := exponentField bits
  let f := fractionField bits
  if e = 0 then
    { mantissa := f, exponent := -1074, narrowBelow := false }
  else
    { mantissa := fractionSize + f, exponent := (e : Int) - 1075, narrowBelow := f == 0 && 1 < e }

/-- The value as a quotient of natural numbers. -/
def numerator (x : Binary) : Nat := x.mantissa * Nat.pow 2 x.exponent.toNat

@[inherit_doc numerator]
def denominator (x : Binary) : Nat := Nat.pow 2 (-x.exponent).toNat

end Binary

namespace Decimal

/-- Compares `d` with `n * 2 ^ j`. -/
def compareScaled (d : Decimal) (n : Nat) (j : Int) : Ordering :=
  compare (d.coefficient * Nat.pow 10 d.exponent.toNat * Nat.pow 2 (-j).toNat)
    (n * Nat.pow 2 j.toNat * Nat.pow 10 (-d.exponent).toNat)

/-- Whether `d` is among the reals that round to `x`: at most halfway to the neighbours of `x`,
and exactly halfway only if the mantissa is even. -/
def readsBackAs (d : Decimal) (x : Binary) : Bool :=
  let low := if x.narrowBelow then 4 * x.mantissa - 1 else 4 * x.mantissa - 2
  let high := 4 * x.mantissa + 2
  let ends := x.mantissa % 2 == 0
  let atLow := d.compareScaled low (x.exponent - 2)
  let atHigh := d.compareScaled high (x.exponent - 2)
  (atLow == .gt || (ends && atLow == .eq)) && (atHigh == .lt || (ends && atHigh == .eq))

/-- How many decimal digits a number has. -/
def width (n : Nat) : Nat := (Nat.toDigits 10 n).length

/-- The least `k` with `x < 10 ^ k`, for a positive `x`. -/
def scale (x : Binary) : Int :=
  if x.denominator ≤ x.numerator then
    width (x.numerator / x.denominator)
  else
    1 - (width ((x.denominator - 1) / x.numerator) : Int)

/-- The multiple of `10 ^ grid` just below `x`, as a number of steps. -/
def stepsBelow (x : Binary) (grid : Int) : Nat :=
  x.numerator * Nat.pow 10 (-grid).toNat / (x.denominator * Nat.pow 10 grid.toNat)

/-- Compares `x` with the middle between `steps` and `steps + 1` steps of `10 ^ grid`. -/
def compareMiddle (x : Binary) (grid : Int) (steps : Nat) : Ordering :=
  compare (2 * x.numerator * Nat.pow 10 (-grid).toNat)
    ((2 * steps + 1) * (x.denominator * Nat.pow 10 grid.toNat))

/-- The multiple of `10 ^ grid` closest to `x` that reads back as `x`, if there is one. Only the
two neighbours of `x` on the grid can be. -/
def onGrid? (tie : Tie) (x : Binary) (grid : Int) : Option Decimal :=
  let steps := stepsBelow x grid
  let below : Decimal := ⟨steps, grid⟩
  let above : Decimal := ⟨steps + 1, grid⟩
  match below.readsBackAs x, above.readsBackAs x with
  | false, false => none
  | true, false => some below
  | false, true => some above
  | true, true =>
    match compareMiddle x grid steps, tie with
    | .lt, _ => some below
    | .gt, _ => some above
    | .eq, .up => some above
    | .eq, .toEven => some (if steps % 2 = 0 then below else above)

/-- The value of `x` itself as a decimal. -/
def exact (x : Binary) : Decimal :=
  if 0 ≤ x.exponent then ⟨x.numerator, 0⟩
  else ⟨x.mantissa * Nat.pow 5 (-x.exponent).toNat, x.exponent⟩

/-- Moves the trailing zeros of the coefficient into the exponent. -/
def stripZeros (d : Decimal) : Decimal :=
  if _h : d.coefficient ≠ 0 ∧ d.coefficient % 10 = 0 then
    stripZeros ⟨d.coefficient / 10, d.exponent + 1⟩
  else
    d
termination_by d.coefficient
decreasing_by all_goals omega

/-- The shortest decimal that reads back as the positive number `x`. Seventeen digits are always
enough. -/
def shortest (tie : Tie) (x : Binary) : Decimal :=
  let found := (List.range 17).findSome? fun n => onGrid? tie x (scale x - (n + 1 : Nat))
  stripZeros (found.getD (exact x))

end Decimal

end BlockFlow
