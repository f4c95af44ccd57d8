import BlockFlow.Decimal.Layout

/-!
# Numerals that a text can hold

A numeral is well formed if each part that it has is digits, at least one, and its whole part starts
with a zero only if it is nothing else. Every natural number is written so and read back
(`toNat?_ofNat`), and so is every number in every style (`wellFormed_of_ofFloat?`): the shortest
decimal of a number has a positive coefficient, so that its digits start with none that is zero.
-/

set_option autoImplicit false

namespace BlockFlow

namespace Numeral

/-- Decimal digits, at least one. -/
structure Digits (ds : List Nat) : Prop where
  ne_nil : ds ≠ []
  lt_ten : ∀ d ∈ ds, d < 10

/-- Digits before the point. -/
structure WholeDigits (ds : List Nat) : Prop extends Digits ds where
  /-- Only the zero alone starts with a zero. -/
  eq_zero : ds.head? = some 0 → ds = [0]

/-- A numeral that a text can hold. -/
structure WellFormed (n : Numeral) : Prop where
  whole : WholeDigits n.whole
  fraction : ∀ ds ∈ n.fraction, Digits ds
  exponent : ∀ e ∈ n.exponent, Digits e.2

theorem Digits.head?_append {ds : List Nat} (h : Digits ds) (more : List Nat) :
    (ds ++ more).head? = ds.head? := by
  obtain ⟨d, rest, rfl⟩ := List.exists_cons_of_ne_nil h.ne_nil
  rfl

/-! ## Digits of natural numbers -/

theorem digitValue_digitChar {d : Nat} (h : d < 10) : digitValue d.digitChar = d :=
  Nat.toNat_digitChar_sub_48_of_lt_ten h

theorem digitsOf_of_lt {n : Nat} (h : n < 10) : digitsOf n = [n] := by
  rw [digitsOf, Nat.toDigits_of_lt_base h, List.map_singleton, digitValue_digitChar h]

theorem digitsOf_of_le {n : Nat} (h : 10 ≤ n) : digitsOf n = digitsOf (n / 10) ++ [n % 10] := by
  rw [digitsOf, Nat.toDigits_of_base_le (by decide) h, List.map_append, List.map_singleton,
    digitValue_digitChar (Nat.mod_lt n (by decide)), digitsOf]

theorem ofDigits_digitsOf (n : Nat) : ofDigits (digitsOf n) = n := by
  have h := Nat.ofDigitChars_ten_toDigits (n := n)
  rw [Nat.ofDigitChars_eq_foldl] at h
  rw [ofDigits, digitsOf, List.foldl_map]
  exact h

theorem digits_digitsOf (n : Nat) : Digits (digitsOf n) := by
  induction n using Nat.strongRecOn with
  | ind n ih =>
    rcases Nat.lt_or_ge n 10 with h | h
    · rw [digitsOf_of_lt h]
      exact ⟨by simp, by simpa using h⟩
    · rw [digitsOf_of_le h]
      refine ⟨by simp, fun d hd => ?_⟩
      rcases List.mem_append.1 hd with hd | hd
      · exact (ih (n / 10) (by omega)).lt_ten d hd
      · rw [List.mem_singleton.1 hd]
        exact Nat.mod_lt n (by decide)

/-- The first digit of a positive number is positive. -/
theorem head?_digitsOf_ne {n : Nat} (h : 0 < n) : (digitsOf n).head? ≠ some 0 := by
  induction n using Nat.strongRecOn with
  | ind n ih =>
    rcases Nat.lt_or_ge n 10 with hlt | hge
    · rw [digitsOf_of_lt hlt]
      simpa using Nat.ne_of_gt h
    · rw [digitsOf_of_le hge, (digits_digitsOf _).head?_append]
      exact ih (n / 10) (by omega) (by omega)

theorem wholeDigits_digitsOf (n : Nat) : WholeDigits (digitsOf n) := by
  refine ⟨digits_digitsOf n, fun h => ?_⟩
  rcases Nat.eq_zero_or_pos n with rfl | hpos
  · exact digitsOf_of_lt (by decide)
  · exact absurd h (head?_digitsOf_ne hpos)

theorem wellFormed_ofNat (n : Nat) : (ofNat n).WellFormed :=
  ⟨wholeDigits_digitsOf n, nofun, nofun⟩

/-- A natural number is read back as long as it is below the bound. -/
theorem toNat?_ofNat {bound n : Nat} (h : n < bound) : (ofNat n).toNat? bound = some n := by
  have hdigits : ofDigits (ofNat n).whole = n := ofDigits_digitsOf n
  rw [toNat?, hdigits, if_pos ⟨rfl, rfl, rfl, h⟩]

end Numeral

/-! ## The shortest decimal -/

namespace Decimal

theorem compareScaled_eq_lt {d : Decimal} {n : Nat} (j : Int) (hd : d.coefficient = 0)
    (hn : 0 < n) : d.compareScaled n j = .lt := by
  rw [compareScaled, hd, Nat.zero_mul, Nat.zero_mul, Nat.compare_eq_lt]
  exact Nat.mul_pos (Nat.mul_pos hn (Nat.pow_pos (by decide))) (Nat.pow_pos (by decide))

/-- Zero is not among the reals that round to a positive number. -/
theorem coefficient_pos_of_readsBackAs {d : Decimal} {x : Binary} (hx : 0 < x.mantissa)
    (h : d.readsBackAs x = true) : 0 < d.coefficient := by
  refine Nat.pos_of_ne_zero fun hzero => ?_
  have hlow : 0 < if x.narrowBelow then 4 * x.mantissa - 1 else 4 * x.mantissa - 2 := by
    split <;> omega
  simp [readsBackAs, compareScaled_eq_lt _ hzero hlow] at h

theorem readsBackAs_of_onGrid? {tie : Tie} {x : Binary} {grid : Int} {d : Decimal}
    (h : onGrid? tie x grid = some d) : d.readsBackAs x = true := by
  unfold onGrid? at h
  dsimp only at h
  split at h
  case h_1 => exact nomatch h
  case h_2 hbelow _ => cases h; exact hbelow
  case h_3 habove => cases h; exact habove
  case h_4 hbelow habove =>
    split at h
    case h_1 => cases h; exact hbelow
    case h_2 => cases h; exact habove
    case h_3 => cases h; exact habove
    case h_4 =>
      cases h
      split
      · exact hbelow
      · exact habove

theorem coefficient_exact_pos {x : Binary} (hx : 0 < x.mantissa) : 0 < (exact x).coefficient := by
  unfold exact
  split
  · exact Nat.mul_pos hx (Nat.pow_pos (by decide))
  · exact Nat.mul_pos hx (Nat.pow_pos (by decide))

theorem coefficient_stripZeros_pos {d : Decimal} (h : 0 < d.coefficient) :
    0 < (stripZeros d).coefficient := by
  fun_induction stripZeros d with
  | case1 d hstrip ih => exact ih (by dsimp only; omega)
  | case2 d hstrip => exact h

theorem coefficient_shortest_pos (tie : Tie) {x : Binary} (hx : 0 < x.mantissa) :
    0 < (shortest tie x).coefficient := by
  refine coefficient_stripZeros_pos ?_
  cases hfound : (List.range 17).findSome? fun n => onGrid? tie x (scale x - (n + 1 : Nat)) with
  | none => exact coefficient_exact_pos hx
  | some d =>
    obtain ⟨n, -, hd⟩ := List.exists_of_findSome?_eq_some hfound
    exact coefficient_pos_of_readsBackAs hx (readsBackAs_of_onGrid? hd)

end Decimal

theorem Binary.mantissa_ofBits_pos {bits : UInt64}
    (h : ¬(Binary.exponentField bits = 0 ∧ Binary.fractionField bits = 0)) :
    0 < (Binary.ofBits bits).mantissa := by
  unfold ofBits
  dsimp only
  split
  · dsimp only; omega
  · dsimp only [fractionSize]; omega

/-! ## Layouts -/

namespace NumberStyle

open Numeral

theorem digits_wholeFraction (style : NumberStyle) : ∀ ds ∈ style.wholeFraction, Digits ds := by
  intro ds hds
  unfold wholeFraction at hds
  split at hds
  · obtain rfl : [0] = ds := Option.some.inj hds
    exact ⟨by simp, by simp⟩
  · exact nomatch hds

theorem wellFormed_zero (style : NumberStyle) (negative : Bool) :
    ({ negative, whole := [0], fraction := style.wholeFraction, exponent := none } :
      Numeral).WellFormed :=
  ⟨⟨⟨by simp, by simp⟩, fun _ => rfl⟩, style.digits_wholeFraction, nofun⟩

variable {digits : List Nat}

/-- The leading digits of a number that starts with no zero. -/
theorem wholeDigits_take (hdigits : Digits digits) (hhead : digits.head? ≠ some 0) {k : Nat}
    (hk : 0 < k) : WholeDigits (digits.take k) := by
  have hhead' : (digits.take k).head? = digits.head? := by
    rw [List.head?_take, if_neg (Nat.ne_of_gt hk)]
  refine ⟨⟨?_, fun d hd => hdigits.lt_ten d (List.mem_of_mem_take hd)⟩,
    fun h => absurd (hhead' ▸ h) hhead⟩
  rw [Ne, List.take_eq_nil_iff]
  exact not_or.2 ⟨Nat.ne_of_gt hk, hdigits.ne_nil⟩

theorem digits_drop (hdigits : Digits digits) {k : Nat} (hk : k < digits.length) :
    Digits (digits.drop k) :=
  ⟨by rw [Ne, List.drop_eq_nil_iff]; omega, fun d hd => hdigits.lt_ten d (List.mem_of_mem_drop hd)⟩

theorem wellFormed_positionalNumeral (style : NumberStyle) (negative : Bool) (exponent : Int)
    (hdigits : Digits digits) (hhead : digits.head? ≠ some 0) :
    (style.positionalNumeral negative digits exponent).WellFormed := by
  unfold positionalNumeral
  dsimp only
  split
  · -- the point stands after the digits and their zeros
    refine ⟨⟨⟨by simp [hdigits.ne_nil], fun d hd => ?_⟩, fun h => ?_⟩,
      style.digits_wholeFraction, nofun⟩
    · rcases List.mem_append.1 hd with hd | hd
      · exact hdigits.lt_ten d hd
      · rw [List.eq_of_mem_replicate hd]
        decide
    · dsimp only at h
      rw [hdigits.head?_append] at h
      exact absurd h hhead
  · split
    · -- the point stands between two digits
      refine ⟨wholeDigits_take hdigits hhead (by omega), fun ds hds => ?_, nofun⟩
      obtain rfl := Option.some.inj hds
      exact digits_drop hdigits (by omega)
    · -- the point and zeros stand before the digits
      refine ⟨⟨⟨by simp, by simp⟩, fun _ => rfl⟩, fun ds hds => ?_, nofun⟩
      obtain rfl := Option.some.inj hds
      refine ⟨by simp [hdigits.ne_nil], fun d hd => ?_⟩
      rcases List.mem_append.1 hd with hd | hd
      · rw [List.eq_of_mem_replicate hd]
        decide
      · exact hdigits.lt_ten d hd

theorem wellFormed_scientificNumeral (negative : Bool) (e : Int) (hdigits : Digits digits)
    (hhead : digits.head? ≠ some 0) : (scientificNumeral negative digits e).WellFormed := by
  refine ⟨wholeDigits_take hdigits hhead Nat.one_pos, fun ds hds => ?_, fun x hx => ?_⟩
  · dsimp only [scientificNumeral] at hds
    split at hds
    · exact nomatch hds
    · obtain rfl := Option.some.inj hds
      exact digits_drop hdigits (by omega)
  · obtain rfl := Option.some.inj hx
    exact digits_digitsOf _

theorem wellFormed_numeral (style : NumberStyle) (negative : Bool) {d : Decimal}
    (hd : 0 < d.coefficient) : (style.numeral negative d).WellFormed := by
  unfold numeral
  dsimp only
  split
  · exact style.wellFormed_positionalNumeral _ _ (digits_digitsOf _) (head?_digitsOf_ne hd)
  · exact wellFormed_scientificNumeral _ _ (digits_digitsOf _) (head?_digitsOf_ne hd)

/-- Whatever is written of a floating-point number is a well-formed numeral. -/
theorem wellFormed_of_ofFloat? {style : NumberStyle} {x : Float} {n : Numeral}
    (h : style.ofFloat? x = some n) : n.WellFormed := by
  unfold ofFloat? at h
  dsimp only at h
  split at h
  · exact nomatch h
  · split at h
    · obtain rfl := Option.some.inj h
      exact style.wellFormed_zero _
    · rename_i hnonzero
      obtain rfl := Option.some.inj h
      exact style.wellFormed_numeral _
        (Decimal.coefficient_shortest_pos _ (Binary.mantissa_ofBits_pos hnonzero))

end NumberStyle

end BlockFlow
