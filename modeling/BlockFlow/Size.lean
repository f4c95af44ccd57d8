/-!
# Sizes that fit a machine word

Sizes and cursors are 64-bit words in the settings a program reads and writes. The library
computes with natural numbers and refuses, where it has to, a sum or a product that no word
holds.
-/

set_option autoImplicit false

namespace BlockFlow

/-- The least number that is no 64-bit word: two to the 64th power. -/
def wordBound : Nat := 18446744073709551616

/-- The sum, if it fits a word. -/
def checkedAdd? (a b : Nat) : Option Nat :=
  if a + b < wordBound then some (a + b) else none

/-- The product, if it fits a word. -/
def checkedMul? (a b : Nat) : Option Nat :=
  if a * b < wordBound then some (a * b) else none

theorem checkedAdd?_eq_some {a b n : Nat} :
    checkedAdd? a b = some n ↔ a + b = n ∧ n < wordBound := by
  unfold checkedAdd?
  split
  · simp only [Option.some.injEq]
    constructor
    · rintro rfl; exact ⟨rfl, by assumption⟩
    · rintro ⟨rfl, _⟩; rfl
  · simp only [false_iff, reduceCtorEq]
    rintro ⟨rfl, h⟩; contradiction

theorem checkedMul?_eq_some {a b n : Nat} :
    checkedMul? a b = some n ↔ a * b = n ∧ n < wordBound := by
  unfold checkedMul?
  split
  · simp only [Option.some.injEq]
    constructor
    · rintro rfl; exact ⟨rfl, by assumption⟩
    · rintro ⟨rfl, _⟩; rfl
  · simp only [false_iff, reduceCtorEq]
    rintro ⟨rfl, h⟩; contradiction

end BlockFlow
