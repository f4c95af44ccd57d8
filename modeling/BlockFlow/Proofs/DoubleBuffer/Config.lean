import BlockFlow.DoubleBuffer.Config
import Mathlib.Data.Int.GCD

/-!
# Validated sizes and the minimum delay

The inner stage takes whole inner blocks, so after `k` outer blocks of input `k * outerSize` modulo
`innerSize` frames are left over. That is always a multiple of the greatest common divisor, so it is
no more than the minimum delay, and for some `k` it is the minimum delay.
-/

set_option autoImplicit false

namespace BlockFlow

/-- The loop keeps the common divisors of the two numbers, by induction over its turns. -/
theorem euclid_eq_gcd (a b : Nat) : euclid a b = Nat.gcd a b := by
  induction a, b using euclid.induct with
  | case1 a => rw [euclid, if_pos rfl, Nat.gcd_zero_right]
  | case2 a b hb ih => rw [euclid, if_neg hb, ih, Nat.gcd_comm a b, Nat.gcd_rec b a, Nat.gcd_comm]

namespace DoubleBufferConfig

variable {config : DoubleBufferConfig}

theorem minimumDelay_eq :
    config.minimumDelay = config.innerSize - Nat.gcd config.innerSize config.outerSize := by
  rw [minimumDelay, euclid_eq_gcd]

/-- Validated sizes and channel counts are positive. -/
theorem pos_of_validate (h : config.validate = .ok ()) :
    0 < config.outerSize ∧ 0 < config.innerSize ∧ 0 < config.inputChannels ∧
      0 < config.outputChannels := by
  unfold validate at h
  by_cases hsizes : config.outerSize = 0 ∨ config.innerSize = 0
  · rw [if_pos hsizes] at h
    cases h
  by_cases hchannels : config.inputChannels = 0 ∨ config.outputChannels = 0
  · rw [if_neg hsizes, if_pos hchannels] at h
    cases h
  rw [not_or] at hsizes hchannels
  exact ⟨Nat.pos_of_ne_zero hsizes.1, Nat.pos_of_ne_zero hsizes.2, Nat.pos_of_ne_zero hchannels.1,
    Nat.pos_of_ne_zero hchannels.2⟩

theorem fifoSize_eq_ok {size : Nat} (h : config.fifoSize = .ok size) :
    size = max config.outerSize config.innerSize + config.delay := by
  unfold fifoSize at h
  cases hsum : checkedAdd? (max config.outerSize config.innerSize) config.delay with
  | none =>
    rw [hsum] at h
    cases h
  | some total =>
    rw [hsum] at h
    cases h
    exact (checkedAdd?_eq_some.1 hsum).1.symm

/-- Validated sizes fit machine words, and so does a full FIFO of either lane. -/
theorem fits_of_validate (h : config.validate = .ok ()) :
    ∃ size, config.fifoSize = .ok size ∧ size < wordBound ∧
      size * max config.inputChannels config.outputChannels < wordBound := by
  obtain ⟨houter, hinner, hinput, houtput⟩ := pos_of_validate h
  have hsizes : ¬ (config.outerSize = 0 ∨ config.innerSize = 0) := by omega
  have hchannels : ¬ (config.inputChannels = 0 ∨ config.outputChannels = 0) := by omega
  rw [validate, if_neg hsizes, if_neg hchannels] at h
  cases hsize : config.fifoSize with
  | error e =>
    rw [hsize] at h
    cases h
  | ok size =>
    simp only [hsize] at h
    cases hproduct : checkedMul? size (max config.inputChannels config.outputChannels) with
    | none =>
      rw [hproduct] at h
      cases h
    | some product =>
      obtain ⟨rfl, hlt⟩ := checkedMul?_eq_some.1 hproduct
      have hpos : 0 < max config.inputChannels config.outputChannels :=
        Nat.lt_of_lt_of_le hinput (Nat.le_max_left ..)
      exact ⟨size, rfl, Nat.lt_of_le_of_lt (Nat.le_mul_of_pos_right size hpos) hlt, hlt⟩

/-- What is left over of whole outer blocks is no more than the minimum delay. -/
theorem mod_le_minimumDelay (hinner : 0 < config.innerSize) (k : Nat) :
    k * config.outerSize % config.innerSize ≤ config.minimumDelay := by
  have hlt := Nat.mod_lt (k * config.outerSize) hinner
  have hinnerDvd := Nat.gcd_dvd_left config.innerSize config.outerSize
  have houterDvd := Nat.gcd_dvd_right config.innerSize config.outerSize
  have hdvd := (Nat.dvd_mod_iff hinnerDvd).2 (Dvd.dvd.mul_left houterDvd k)
  -- two multiples of the divisor, one less than the other, are at least the divisor apart
  have hgap := Nat.le_of_dvd (Nat.sub_pos_of_lt hlt) (Nat.dvd_sub hinnerDvd hdvd)
  rw [minimumDelay_eq]
  omega

/-- After some number of outer blocks exactly the minimum delay is left over. -/
theorem exists_mod_eq_minimumDelay (hinner : 0 < config.innerSize) :
    ∃ k, k * config.outerSize % config.innerSize = config.minimumDelay := by
  rcases Nat.lt_or_ge (Nat.gcd config.innerSize config.outerSize) config.innerSize with hlt | hge
  · rw [Nat.gcd_comm] at hlt
    obtain ⟨m, -, hm⟩ := Nat.exists_mul_mod_eq_gcd hlt
    have hpos : 0 < Nat.gcd config.outerSize config.innerSize := Nat.gcd_pos_of_pos_right _ hinner
    -- `m` outer blocks leave the divisor over, and `innerSize - 1` times as many its opposite
    refine ⟨(config.innerSize - 1) * m, ?_⟩
    have hopposite : (config.innerSize - 1) * Nat.gcd config.outerSize config.innerSize =
        config.innerSize - Nat.gcd config.outerSize config.innerSize +
          config.innerSize * (Nat.gcd config.outerSize config.innerSize - 1) := by
      rw [Nat.sub_mul, Nat.mul_sub, Nat.one_mul, Nat.mul_one]
      have hle := Nat.le_mul_of_pos_right config.innerSize hpos
      omega
    calc (config.innerSize - 1) * m * config.outerSize % config.innerSize
        = (config.innerSize - 1) * (config.outerSize * m % config.innerSize) %
            config.innerSize := by
          rw [Nat.mul_mod_mod, Nat.mul_assoc, Nat.mul_comm m]
      _ = config.innerSize - Nat.gcd config.outerSize config.innerSize := by
          rw [hm, hopposite, Nat.add_mul_mod_self_left, Nat.mod_eq_of_lt (by omega)]
      _ = config.minimumDelay := by
          rw [Nat.gcd_comm, minimumDelay_eq]
  · refine ⟨0, ?_⟩
    rw [Nat.zero_mul, Nat.zero_mod, minimumDelay_eq]
    omega

end DoubleBufferConfig

end BlockFlow
