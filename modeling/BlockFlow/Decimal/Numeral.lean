/-!
# Numbers as they are written

A numeral keeps the digits of a number as they stand in a text: sign, whole part, fraction and
exponent.
-/

set_option autoImplicit false

namespace BlockFlow

/-- A number as it is written. The digits of each part stand in order. In an exponent `true`
stands for minus. -/
structure Numeral where
  negative : Bool
  whole : List Nat
  fraction : Option (List Nat)
  exponent : Option (Bool × List Nat)
  deriving DecidableEq, Repr

namespace Numeral

/-- The number that decimal digits stand for. -/
def ofDigits (digits : List Nat) : Nat :=
  digits.foldl (fun n d => 10 * n + d) 0

/-- The value of a decimal digit. -/
def digitValue (c : Char) : Nat := c.toNat - '0'.toNat

/-- The decimal digits of a number. -/
def digitsOf (n : Nat) : List Nat :=
  (Nat.toDigits 10 n).map digitValue

/-- Digits as characters. -/
def digitChars (digits : List Nat) : List Char :=
  digits.map Nat.digitChar

/-- A natural number, written without fraction and exponent. -/
def ofNat (n : Nat) : Numeral :=
  { negative := false, whole := digitsOf n, fraction := none, exponent := none }

/-- The natural number below `bound` that is written as such: without sign, fraction and
exponent. -/
def toNat? (bound : Nat) (n : Numeral) : Option Nat :=
  if n.negative = false ∧ n.fraction = none ∧ n.exponent = none ∧ ofDigits n.whole < bound then
    some (ofDigits n.whole)
  else
    none

/-- The exponent as an integer, zero if none is written. -/
def exponentValue (n : Numeral) : Int :=
  match n.exponent with
  | none => 0
  | some (true, digits) => -(ofDigits digits : Int)
  | some (false, digits) => ofDigits digits

/-- The characters of the numeral. An exponent is written with its sign. -/
def chars (n : Numeral) : List Char :=
  let sign := if n.negative then ['-'] else []
  let fraction := match n.fraction with
    | none => []
    | some digits => '.' :: digitChars digits
  let exponent := match n.exponent with
    | none => []
    | some (negative, digits) => 'e' :: (if negative then '-' else '+') :: digitChars digits
  sign ++ digitChars n.whole ++ fraction ++ exponent

/-- The text of the numeral. -/
def text (n : Numeral) : String := String.ofList n.chars

end Numeral

end BlockFlow
