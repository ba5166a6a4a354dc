import Mathlib
import PlotPane.Proofs.ReadBack

/-!
# The order of the nearest doubles

The bits of the double nearest to a number grow with the number. Together with the sign they are a
place in the order of all doubles, so rounding keeps the order, with infinity at the end. The bits
are those of a given double exactly for the numbers that the double attracts, and those of infinity
exactly from half a step above the largest double on.
-/

namespace PlotPane.Double

/-- A number lies on a step of the doubles, and a multiple of the step is nearest to it, the even
one of two. -/
structure Rounds (r : ℚ) (step : ℤ) (m : ℕ) : Prop where
  bottom : -1074 ≤ step
  below : r < 2 ^ (step + 53)
  above : -1074 < step → 2 ^ (step + 52) ≤ r
  low : (m : ℚ) - 1 / 2 ≤ r / 2 ^ step
  high : r / 2 ^ step ≤ m + 1 / 2
  odd : m % 2 = 1 → (m : ℚ) - 1 / 2 < r / 2 ^ step ∧ r / 2 ^ step < m + 1 / 2

/-- The bits of a multiple of a step, or those of infinity. -/
def bitsAt (step : ℤ) (m : ℕ) : ℕ :=
  min ((step + 1074).toNat * exponentWeight + m) (topExponent * exponentWeight)

section

variable {r r' : ℚ} {step step' : ℤ} {m m' : ℕ}

theorem Rounds.lt_div (h : Rounds r step m) : r / 2 ^ step < 2 * exponentWeight := by
  have hpos : (0 : ℚ) < 2 ^ step := by positivity
  rw [div_lt_iff₀ hpos, cast_exponentWeight]
  have hbelow := h.below
  rw [add_comm, zpow_add₀ two_ne_zero] at hbelow
  norm_num at hbelow ⊢
  exact hbelow

theorem Rounds.le_div (h : Rounds r step m) (hstep : -1074 < step) :
    (exponentWeight : ℚ) ≤ r / 2 ^ step := by
  have hpos : (0 : ℚ) < 2 ^ step := by positivity
  rw [le_div_iff₀ hpos, cast_exponentWeight, ← zpow_add₀ two_ne_zero, add_comm]
  exact h.above hstep

theorem Rounds.le_twice (h : Rounds r step m) : m ≤ 2 * exponentWeight := by
  have hlt : (m : ℚ) < 2 * exponentWeight + 1 := by linarith [h.low, h.lt_div]
  have hlt' : m < 2 * exponentWeight + 1 := by exact_mod_cast hlt
  omega

theorem Rounds.full (h : Rounds r step m) (hstep : -1074 < step) : exponentWeight ≤ m := by
  have hlt : (exponentWeight : ℚ) < m + 1 := by linarith [h.high, h.le_div hstep]
  have hlt' : exponentWeight < m + 1 := by exact_mod_cast hlt
  omega

theorem Rounds.nearestBits_eq {num den : ℕ} (hnum : 0 < num) (hden : 0 < den)
    (h : Rounds (num / den) step m) : nearestBits num den = bitsAt step m := by
  refine Double.nearestBits_eq hnum hden ?_ h.low h.high h.odd
  obtain ⟨hlow, hhigh⟩ := log2Ratio_spec hnum hden
  have hlt := (zpow_lt_zpow_iff_right₀ (one_lt_two : (1 : ℚ) < 2)).mp (hlow.trans_lt h.below)
  have hbottom := h.bottom
  by_cases hstep : -1074 < step
  · have hge := (zpow_lt_zpow_iff_right₀ (one_lt_two : (1 : ℚ) < 2)).mp
      ((h.above hstep).trans_lt hhigh)
    omega
  · omega

theorem exists_nearest {q : ℚ} (hq : 0 ≤ q) : ∃ m : ℕ, (m : ℚ) - 1 / 2 ≤ q ∧ q ≤ m + 1 / 2 ∧
    (m % 2 = 1 → (m : ℚ) - 1 / 2 < q ∧ q < m + 1 / 2) := by
  have hfloor := Nat.floor_le hq
  have hceil := Nat.lt_floor_add_one q
  generalize ⌊q⌋₊ = n at hfloor hceil
  rcases lt_trichotomy q (n + 1 / 2) with hlt | heq | hgt
  · exact ⟨n, by linarith, by linarith, fun _ => ⟨by linarith, by linarith⟩⟩
  · rcases Nat.mod_two_eq_zero_or_one n with heven | hodd
    · exact ⟨n, by linarith, by linarith, fun h => by omega⟩
    · exact ⟨n + 1, by push_cast; linarith, by push_cast; linarith, fun h => by omega⟩
  · refine ⟨n + 1, ?_, ?_, fun _ => ⟨?_, ?_⟩⟩ <;> push_cast <;> linarith

theorem exists_rounds (hr : 0 < r) : ∃ step m, Rounds r step m := by
  obtain ⟨k, hlow, hhigh⟩ := exists_mem_Ico_zpow hr (one_lt_two : (1 : ℚ) < 2)
  obtain ⟨step, hstep⟩ : ∃ step : ℤ, step = max (k - 52) (-1074) := ⟨_, rfl⟩
  obtain ⟨m, hmlow, hmhigh, hmodd⟩ := exists_nearest (q := r / 2 ^ step) (by positivity)
  refine ⟨step, m, by omega, ?_, ?_, hmlow, hmhigh, hmodd⟩
  · exact hhigh.trans_le (zpow_le_zpow_right₀ one_le_two (by omega))
  · intro hlt
    exact le_trans (zpow_le_zpow_right₀ one_le_two (by omega)) hlow

theorem Rounds.mono (h : Rounds r step m) (h' : Rounds r' step' m') (hr : r ≤ r') :
    bitsAt step m ≤ bitsAt step' m' := by
  have hbottom := h.bottom
  have hbottom' := h'.bottom
  have hle := h.le_twice
  rw [bitsAt, bitsAt]
  rcases lt_trichotomy step step' with hlt | rfl | hgt
  · have hfull := h'.full (by omega)
    simp only [exponentWeight, topExponent] at hle hfull ⊢
    omega
  · -- On one step the nearest multiples are in order.
    have hm : m ≤ m' := by
      by_contra hlt
      have hcast : (m' : ℚ) + 1 ≤ m := by exact_mod_cast Nat.lt_of_not_le hlt
      have hdiv : r / 2 ^ step ≤ r' / 2 ^ step := by gcongr
      have hlow := h.low
      have hhigh := h'.high
      have heq : (m : ℚ) = m' + 1 := by linarith
      have hsucc : m = m' + 1 := by exact_mod_cast heq
      by_cases hodd : m % 2 = 1
      · linarith [(h.odd hodd).1]
      · linarith [(h'.odd (by omega)).2]
    omega
  · -- The larger step holds larger numbers.
    have habove := h.above (by omega)
    have hlt := (hr.trans_lt h'.below)
    have hpow := (zpow_lt_zpow_iff_right₀ (one_lt_two : (1 : ℚ) < 2)).mp (habove.trans_lt hlt)
    omega

end

/-- The bits of the double nearest to a number that is not negative. -/
def nearest (r : ℚ) : ℕ :=
  nearestBits r.num.toNat r.den

/-- The place of the double nearest to a number, in the order of the doubles. -/
def nearestPlace (v : ℚ) : ℤ :=
  if v < 0 then -(nearest (-v) : ℤ) else nearest v

theorem nearest_zero : nearest 0 = 0 := rfl

theorem cast_toNat {n : ℤ} (hn : 0 ≤ n) : ((n.toNat : ℕ) : ℚ) = n := by
  exact_mod_cast congrArg (Int.cast : ℤ → ℚ) (Int.toNat_of_nonneg hn)

theorem cast_num_div_den {r : ℚ} (hr : 0 ≤ r) : ((r.num.toNat : ℕ) : ℚ) / r.den = r := by
  rw [cast_toNat (Rat.num_nonneg.mpr hr), Rat.num_div_den]

theorem Rounds.nearest_eq {r : ℚ} {step : ℤ} {m : ℕ} (hr : 0 < r) (h : Rounds r step m) :
    nearest r = bitsAt step m := by
  have hnum : 0 < r.num.toNat := by
    rw [← Int.natCast_pos]
    rw [Int.toNat_of_nonneg (Rat.num_nonneg.mpr hr.le)]
    exact Rat.num_pos.mpr hr
  rw [nearest]
  rw [← cast_num_div_den hr.le] at h
  exact h.nearestBits_eq hnum r.den_pos

theorem nearest_mono {r r' : ℚ} (hr : 0 ≤ r) (h : r ≤ r') : nearest r ≤ nearest r' := by
  rcases hr.eq_or_lt with rfl | hpos
  · exact Nat.zero_le _
  · obtain ⟨step, m, hrounds⟩ := exists_rounds hpos
    obtain ⟨step', m', hrounds'⟩ := exists_rounds (hpos.trans_le h)
    rw [hrounds.nearest_eq hpos, hrounds'.nearest_eq (hpos.trans_le h)]
    exact hrounds.mono hrounds' h

theorem nearestPlace_of_nonneg {v : ℚ} (hv : 0 ≤ v) : nearestPlace v = nearest v :=
  if_neg (not_lt.mpr hv)

theorem nearestPlace_mono {v v' : ℚ} (h : v ≤ v') : nearestPlace v ≤ nearestPlace v' := by
  rw [nearestPlace, nearestPlace]
  split
  · split
    · have hle := nearest_mono (by linarith) (neg_le_neg h)
      omega
    · omega
  · rw [if_neg (by linarith)]
    have hle := nearest_mono (not_lt.mp ‹_›) h
    omega

theorem nearestPlace_neg (v : ℚ) : nearestPlace (-v) = -nearestPlace v := by
  rcases lt_trichotomy v 0 with hlt | rfl | hgt
  · rw [nearestPlace, nearestPlace, if_neg (by linarith), if_pos hlt, neg_neg]
  · rfl
  · rw [nearestPlace, nearestPlace, if_pos (by linarith), if_neg (by linarith), neg_neg]

/-- From here on the nearest double is infinity. -/
def overflow : ℚ := 2 ^ (1024 : ℤ) - 2 ^ (970 : ℤ)

theorem overflow_eq : overflow = (2 * exponentWeight - 1 / 2) * 2 ^ (971 : ℤ) := by
  have htop : (2 : ℚ) ^ (1024 : ℤ) = 2 * (2 ^ (52 : ℤ) * 2 ^ (971 : ℤ)) := by
    rw [← zpow_add₀ two_ne_zero, ← zpow_one_add₀ two_ne_zero]
    rfl
  have hstep : (2 : ℚ) ^ (971 : ℤ) = 2 * 2 ^ (970 : ℤ) := by
    rw [← zpow_one_add₀ two_ne_zero]
    rfl
  rw [overflow, htop, cast_exponentWeight, hstep]
  ring

theorem Rounds.lt_overflow_iff {r : ℚ} {step : ℤ} {m : ℕ} (h : Rounds r step m) :
    (step + 1074).toNat * exponentWeight + m < topExponent * exponentWeight ↔ r < overflow := by
  have hpos : (0 : ℚ) < 2 ^ (971 : ℤ) := by positivity
  have hbottom := h.bottom
  have htwice := h.le_twice
  have hweight : (1 : ℚ) ≤ exponentWeight := by norm_num [exponentWeight]
  rw [overflow_eq]
  rcases lt_trichotomy step 971 with hlt | rfl | hgt
  · refine iff_of_true ?_ ?_
    · simp only [exponentWeight, topExponent] at htwice ⊢
      omega
    · calc
        r < 2 ^ (step + 53) := h.below
        _ ≤ 2 ^ ((52 : ℤ) + 971) := zpow_le_zpow_right₀ one_le_two (by omega)
        _ = exponentWeight * 2 ^ (971 : ℤ) := by
          rw [zpow_add₀ two_ne_zero, cast_exponentWeight]
        _ ≤ (2 * exponentWeight - 1 / 2) * 2 ^ (971 : ℤ) := by
          gcongr
          linarith
  · rw [← div_lt_iff₀ hpos]
    have hcarry : ((971 : ℤ) + 1074).toNat * exponentWeight + m < topExponent * exponentWeight ↔
        m < 2 * exponentWeight := by
      simp only [exponentWeight, topExponent]
      omega
    rw [hcarry]
    constructor
    · intro hm
      have hle : (m : ℚ) + 1 ≤ 2 * exponentWeight := by exact_mod_cast hm
      rcases Nat.mod_two_eq_zero_or_one m with heven | hodd
      · -- An even mantissa is not the last one.
        have hm' : m + 2 ≤ 2 * exponentWeight := by omega
        have hle' : (m : ℚ) + 2 ≤ 2 * exponentWeight := by exact_mod_cast hm'
        linarith [h.high]
      · linarith [(h.odd hodd).2]
    · intro hlt
      have hcast : (m : ℚ) < 2 * exponentWeight := by linarith [h.low]
      exact_mod_cast hcast
  · refine iff_of_false ?_ ?_
    · have hfull := h.full (by omega)
      simp only [exponentWeight, topExponent] at hfull ⊢
      omega
    · refine not_lt.mpr ?_
      calc
        (2 * (exponentWeight : ℚ) - 1 / 2) * 2 ^ (971 : ℤ) ≤ 2 ^ (53 : ℤ) * 2 ^ (971 : ℤ) := by
          gcongr
          norm_num [exponentWeight]
        _ = 2 ^ ((53 : ℤ) + 971) := by rw [zpow_add₀ two_ne_zero]
        _ ≤ 2 ^ (step + 52) := zpow_le_zpow_right₀ one_le_two (by omega)
        _ ≤ r := h.above (by omega)

theorem nearest_lt_iff {r : ℚ} (hr : 0 ≤ r) :
    nearest r < topExponent * exponentWeight ↔ r < overflow := by
  rcases hr.eq_or_lt with rfl | hpos
  · refine iff_of_true (by decide) ?_
    rw [overflow_eq]
    have hweight : (1 : ℚ) ≤ exponentWeight := by norm_num [exponentWeight]
    have hfactor : (0 : ℚ) < 2 * exponentWeight - 1 / 2 := by linarith
    positivity
  · obtain ⟨step, m, h⟩ := exists_rounds hpos
    rw [h.nearest_eq hpos, ← h.lt_overflow_iff, bitsAt]
    omega

/-- The bits are those of a magnitude in one of two ways: on its own step, or on the step below a
power of two with a mantissa that carries. -/
theorem Rounds.attracts {r : ℚ} {step : ℤ} {m E f : ℕ} (h : Rounds r step m)
    (hf : f < exponentWeight)
    (hbits : (step + 1074).toNat * exponentWeight + m = E * exponentWeight + f) :
    (ofFields E f).Attracts r := by
  have hbottom := h.bottom
  have htwice := h.le_twice
  have hfull := h.full
  have hmantissa : (ofFields E f).mantissa = if E = 0 then f else f + exponentWeight := rfl
  have hexponent : (ofFields E f).exponent = (max E 1 : ℕ) - 1075 := rfl
  have hways : (step = (ofFields E f).exponent ∧ m = (ofFields E f).mantissa) ∨
      (step + 1 = (ofFields E f).exponent ∧ m = 2 * exponentWeight ∧ f = 0 ∧ 1 < E) := by
    rw [hexponent, hmantissa]
    simp only [exponentWeight] at *
    split <;> omega
  rcases hways with ⟨rfl, rfl⟩ | ⟨hstep, rfl, rfl, hE⟩
  · refine ⟨?_, h.high, h.odd⟩
    by_cases hnarrow : (ofFields E f).narrow = true
    · -- A power of two lies at the lower end of its step.
      have hfields : f = 0 ∧ 1 < E := by simpa [ofFields] using hnarrow
      have hle := h.le_div (by rw [hexponent]; omega)
      have heq : (ofFields E f).mantissa = exponentWeight := by
        rw [hmantissa, if_neg (by omega), hfields.1, Nat.zero_add]
      rw [if_pos hnarrow, heq]
      linarith
    · rw [if_neg hnarrow]
      exact h.low
  · have heq : (ofFields E 0).mantissa = exponentWeight := by
      rw [hmantissa, if_neg (by omega), Nat.zero_add]
    have hnarrow : (ofFields E 0).narrow = true := by simp [ofFields, hE]
    have hdouble : r / 2 ^ step = 2 * (r / 2 ^ (ofFields E 0).exponent) := by
      rw [← hstep, zpow_add_one₀ two_ne_zero]
      field_simp
    have hlow := h.low
    have hlt := h.lt_div
    rw [hdouble] at hlow hlt
    push_cast at hlow
    refine ⟨?_, ?_, ?_⟩
    · rw [if_pos hnarrow, heq]
      linarith
    · rw [heq]
      linarith
    · rw [heq]
      intro hodd
      exact absurd hodd (by decide)

/-- A magnitude is the nearest one exactly to the numbers that it attracts. -/
theorem nearest_eq_iff {r : ℚ} (hr : 0 ≤ r) {E f : ℕ} (hE : E < topExponent)
    (hf : f < exponentWeight) :
    nearest r = E * exponentWeight + f ↔ (ofFields E f).Attracts r := by
  constructor
  · intro hbits
    rcases hr.eq_or_lt with rfl | hpos
    · have hzero : E = 0 ∧ f = 0 := by
        rw [nearest_zero] at hbits
        simp only [exponentWeight] at hbits
        omega
      obtain ⟨rfl, rfl⟩ := hzero
      simpa [ofFields] using Binary.attracts_self (ofFields 0 0)
    · obtain ⟨step, m, h⟩ := exists_rounds hpos
      have hle := bits_le hE hf
      rw [h.nearest_eq hpos, bitsAt] at hbits
      refine h.attracts hf ?_
      simp only [exponentWeight, topExponent] at *
      omega
  · intro h
    rw [← cast_num_div_den hr] at h
    exact nearestBits_of_attracts hE hf r.den_pos h

/-- Zero looks the same from both sides. -/
theorem attracts_zero_neg {v : ℚ} (h : (ofFields 0 0).Attracts v) :
    (ofFields 0 0).Attracts (-v) := by
  have hzero : ((ofFields 0 0).mantissa : ℚ) = 0 := rfl
  have hnarrow : (ofFields 0 0).narrow = false := rfl
  obtain ⟨hlow, hhigh, -⟩ := h
  rw [hzero, hnarrow, if_neg Bool.false_ne_true] at hlow
  rw [hzero] at hhigh
  refine ⟨?_, ?_, fun hodd => absurd hodd (by decide)⟩
  · rw [hzero, hnarrow, if_neg Bool.false_ne_true, neg_div]
    linarith
  · rw [hzero, neg_div]
    linarith

/-- A number has the place of a double exactly if the double attracts it. -/
theorem nearestPlace_eq_iff {v : ℚ} {E f : ℕ} (hE : E < topExponent) (hf : f < exponentWeight) :
    nearestPlace v = (E * exponentWeight + f : ℕ) ↔ (ofFields E f).Attracts v := by
  rcases le_or_gt 0 v with hv | hv
  · rw [nearestPlace_of_nonneg hv, Nat.cast_inj]
    exact nearest_eq_iff hv hE hf
  · have hneg : 0 ≤ -v := by linarith
    have hplace : nearestPlace v = -(nearest (-v) : ℤ) := if_pos hv
    rw [hplace]
    -- Below zero only zero itself has a place that is not negative.
    constructor
    · intro h
      obtain ⟨rfl, rfl⟩ : E = 0 ∧ f = 0 := by
        simp only [exponentWeight] at h
        omega
      have hattracts := (nearest_eq_iff hneg hE hf).mp (by omega)
      rw [← neg_neg v]
      exact attracts_zero_neg hattracts
    · intro h
      obtain ⟨rfl, rfl⟩ := zero_of_attracts h (hv.trans (by positivity))
      have hbits := (nearest_eq_iff hneg hE hf).mpr (attracts_zero_neg h)
      omega

theorem abs_nearestPlace_lt_iff (v : ℚ) :
    |nearestPlace v| < topExponent * exponentWeight ↔ |v| < overflow := by
  have habs : |nearestPlace v| = nearest |v| := by
    rcases abs_choice v with h | h
    · have hv : 0 ≤ v := abs_eq_self.mp h
      rw [h, nearestPlace_of_nonneg hv, Nat.abs_cast]
    · have hv : 0 ≤ -v := neg_nonneg.mpr (abs_eq_neg_self.mp h)
      rw [h, ← abs_neg, ← nearestPlace_neg, nearestPlace_of_nonneg hv, Nat.abs_cast]
  rw [habs, ← nearest_lt_iff (abs_nonneg v)]
  norm_cast

end PlotPane.Double
