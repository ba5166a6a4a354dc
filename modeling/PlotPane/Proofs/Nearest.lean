import Mathlib.Algebra.Order.Field.Power
import Mathlib.Algebra.Order.Field.Rat
import Mathlib.Tactic.FieldSimp
import Mathlib.Tactic.Linarith
import Mathlib.Tactic.Positivity
import Mathlib.Tactic.Ring
import PlotPane.Number.Binary

/-!
# The nearest double

Around every double lie the numbers that round to it: half the way to its neighbours, and the ends
where the mantissa is even. If a fraction is among them, the bits that are put together for the
fraction are those of the double. A decimal number rounds in the same way, because the powers of ten
that are never formed are out of reach of every double but zero.
-/

namespace PlotPane

theorem powRatio_pos {base : ℕ} (hbase : 0 < base) (e : ℤ) :
    0 < (powRatio base e).1 ∧ 0 < (powRatio base e).2 :=
  ⟨Nat.pow_pos hbase, Nat.pow_pos hbase⟩

theorem cast_powRatio {base : ℕ} (hbase : 0 < base) (e : ℤ) :
    ((powRatio base e).1 : ℚ) / (powRatio base e).2 = (base : ℚ) ^ e := by
  have hne : (base : ℚ) ≠ 0 := by exact_mod_cast hbase.ne'
  rcases Int.le_total 0 e with he | he
  · obtain ⟨n, rfl⟩ := Int.eq_ofNat_of_zero_le he
    simp [powRatio]
  · obtain ⟨n, hn⟩ := Int.eq_ofNat_of_zero_le (Int.neg_nonneg_of_nonpos he)
    obtain rfl : e = -(n : ℤ) := by omega
    simp [powRatio]

/-- A fraction is compared with a power by products of naturals. -/
theorem powRatio_le_iff {base den : ℕ} (hbase : 0 < base) (num : ℕ) (hden : 0 < den) (e : ℤ) :
    den * (powRatio base e).1 ≤ num * (powRatio base e).2 ↔ (base : ℚ) ^ e ≤ num / den := by
  obtain ⟨hnum', hden'⟩ := powRatio_pos hbase e
  have hden : (0 : ℚ) < den := by exact_mod_cast hden
  have hpow : (0 : ℚ) < (powRatio base e).2 := by exact_mod_cast hden'
  rw [← cast_powRatio hbase, div_le_div_iff₀ hpow hden, ← Nat.cast_le (α := ℚ)]
  push_cast
  rw [mul_comm (den : ℚ)]

theorem cast_div_powRatio {base : ℕ} (hbase : 0 < base) (num den : ℕ) (e : ℤ) :
    ((num * (powRatio base e).2 : ℕ) : ℚ) / ((den * (powRatio base e).1 : ℕ) : ℚ) =
      num / den / (base : ℚ) ^ e := by
  rw [← cast_powRatio hbase]
  push_cast
  rw [div_div_eq_mul_div, div_mul_eq_mul_div, div_div]

/-- The natural number that is rounded to, by where the quotient lies. -/
theorem roundDiv_toEven_eq {num den m : ℕ} (hden : 0 < den) (hlow : 2 * (m * den) ≤ 2 * num + den)
    (hhigh : 2 * num ≤ 2 * (m * den) + den)
    (hodd : m % 2 = 1 → 2 * (m * den) < 2 * num + den ∧ 2 * num < 2 * (m * den) + den) :
    roundDiv .toEven num den = m := by
  have hrest : num % den < den := Nat.mod_lt num hden
  have hsplit : num / den * den + num % den = num := Nat.div_add_mod' num den
  simp only [roundDiv, Tie.goesUp, Bool.or_eq_true, Bool.and_eq_true, decide_eq_true_eq,
    beq_iff_eq]
  -- Only the whole part and the number after it are near enough.
  have hge : num / den ≤ m := by
    by_contra hlt
    have hmul : (m + 1) * den ≤ num / den * den := Nat.mul_le_mul_right den (by omega)
    rw [Nat.add_mul] at hmul
    omega
  have hle : m ≤ num / den + 1 := by
    by_contra hlt
    have hmul : (num / den + 2) * den ≤ m * den := Nat.mul_le_mul_right den (by omega)
    rw [Nat.add_mul] at hmul
    omega
  obtain rfl | rfl : m = num / den ∨ m = num / den + 1 := by omega
  · rw [if_neg (by omega)]
  · rw [Nat.add_mul] at hlow hhigh hodd
    rw [if_pos (by omega)]

theorem roundDiv_toEven_of_cast {num den m : ℕ} (hden : 0 < den)
    (hlow : (m : ℚ) - 1 / 2 ≤ num / den) (hhigh : (num / den : ℚ) ≤ m + 1 / 2)
    (hodd : m % 2 = 1 → (m : ℚ) - 1 / 2 < num / den ∧ (num / den : ℚ) < m + 1 / 2) :
    roundDiv .toEven num den = m := by
  have hden' : (0 : ℚ) < den := by exact_mod_cast hden
  rw [le_div_iff₀ hden'] at hlow
  rw [div_le_iff₀ hden'] at hhigh
  rw [lt_div_iff₀ hden', div_lt_iff₀ hden'] at hodd
  apply roundDiv_toEven_eq hden
  · have hcast : (2 * (m * den) : ℚ) ≤ 2 * num + den := by linarith
    exact_mod_cast hcast
  · have hcast : (2 * num : ℚ) ≤ 2 * (m * den) + den := by linarith
    exact_mod_cast hcast
  · intro hm
    obtain ⟨hlow, hhigh⟩ := hodd hm
    have hcast : (2 * (m * den) : ℚ) < 2 * num + den := by linarith
    have hcast' : (2 * num : ℚ) < 2 * (m * den) + den := by linarith
    exact ⟨by exact_mod_cast hcast, by exact_mod_cast hcast'⟩

namespace Decimal

def value (d : Decimal) : ℚ :=
  d.digits * 10 ^ d.exponent

theorem lt_pow_digitCount (n : ℕ) : n < 10 ^ digitCount n :=
  (Nat.length_toDigits_le_iff (by decide) Nat.length_toDigits_pos).mp (le_refl _)

theorem pow_le_of_digitCount {n : ℕ} (hn : n ≠ 0) : 10 ^ (digitCount n - 1) ≤ n := by
  by_cases hone : digitCount n - 1 = 0
  · rw [hone, pow_zero]
    exact Nat.one_le_iff_ne_zero.mpr hn
  · by_contra hlt
    have hle : (Nat.toDigits 10 n).length ≤ digitCount n - 1 :=
      (Nat.length_toDigits_le_iff (by decide) (by omega)).mpr (by omega)
    rw [← digitCount] at hle
    omega

/-- A decimal number lies below the power of ten after its leading digit. -/
theorem value_lt (d : Decimal) : d.value < 10 ^ ((digitCount d.digits : ℤ) + d.exponent) := by
  have hcast : (d.digits : ℚ) < 10 ^ (digitCount d.digits : ℤ) := by
    rw [zpow_natCast]
    exact_mod_cast lt_pow_digitCount d.digits
  rw [zpow_add₀ (by norm_num), value]
  gcongr

theorem le_value {d : Decimal} (hd : d.digits ≠ 0) :
    10 ^ ((digitCount d.digits : ℤ) + d.exponent - 1) ≤ d.value := by
  have hcount : 1 ≤ digitCount d.digits := Nat.length_toDigits_pos
  have hcast : (10 : ℚ) ^ ((digitCount d.digits - 1 : ℕ) : ℤ) ≤ d.digits := by
    rw [zpow_natCast]
    exact_mod_cast pow_le_of_digitCount hd
  have hexp : (digitCount d.digits : ℤ) + d.exponent - 1 =
      ((digitCount d.digits - 1 : ℕ) : ℤ) + d.exponent := by omega
  rw [hexp, zpow_add₀ (by norm_num), value]
  gcongr

end Decimal

namespace Binary

/-- A number rounds to a binary magnitude: it is no farther away than half a step up and half a step
down, which is a quarter where the magnitude is narrow, and not as far where the mantissa is odd. -/
structure Attracts (b : Binary) (v : ℚ) : Prop where
  low : (b.mantissa : ℚ) - (if b.narrow then 1 / 4 else 1 / 2) ≤ v / 2 ^ b.exponent
  high : v / 2 ^ b.exponent ≤ b.mantissa + 1 / 2
  odd : b.mantissa % 2 = 1 →
    (b.mantissa : ℚ) - 1 / 2 < v / 2 ^ b.exponent ∧ v / 2 ^ b.exponent < b.mantissa + 1 / 2

end Binary

namespace Double

theorem log2Ratio_spec {num den : ℕ} (hnum : 0 < num) (hden : 0 < den) :
    (2 : ℚ) ^ log2Ratio num den ≤ num / den ∧
      (num / den : ℚ) < 2 ^ (log2Ratio num den + 1) := by
  obtain ⟨k, hk⟩ : ∃ k : ℤ, k = Nat.log2 num - Nat.log2 den := ⟨_, rfl⟩
  have hden' : (0 : ℚ) < den := by exact_mod_cast hden
  have hnumLow : (2 : ℚ) ^ Nat.log2 num ≤ num := by exact_mod_cast Nat.log2_self_le hnum.ne'
  have hnumHigh : (num : ℚ) < 2 ^ (Nat.log2 num + 1) := by exact_mod_cast Nat.lt_log2_self
  have hdenLow : (2 : ℚ) ^ Nat.log2 den ≤ den := by exact_mod_cast Nat.log2_self_le hden.ne'
  have hdenHigh : (den : ℚ) < 2 ^ (Nat.log2 den + 1) := by exact_mod_cast Nat.lt_log2_self
  have hlow : (2 : ℚ) ^ (k - 1) ≤ num / den := by
    rw [le_div_iff₀ hden']
    calc
      (2 : ℚ) ^ (k - 1) * den ≤ 2 ^ (k - 1) * 2 ^ (Nat.log2 den + 1) := by gcongr
      _ = 2 ^ Nat.log2 num := by
        rw [← zpow_natCast, ← zpow_natCast, ← zpow_add₀ two_ne_zero]
        congr 1
        omega
      _ ≤ num := hnumLow
  have hhigh : (num / den : ℚ) < 2 ^ (k + 1) := by
    rw [div_lt_iff₀ hden']
    calc
      (num : ℚ) < 2 ^ (Nat.log2 num + 1) := hnumHigh
      _ = 2 ^ (k + 1) * 2 ^ Nat.log2 den := by
        rw [← zpow_natCast, ← zpow_natCast, ← zpow_add₀ two_ne_zero]
        congr 1
        omega
      _ ≤ 2 ^ (k + 1) * den := by gcongr
  have hiff := powRatio_le_iff two_pos num hden k
  rw [log2Ratio, ← hk]
  by_cases hle : den * (powRatio 2 k).1 ≤ num * (powRatio 2 k).2
  · rw [if_pos hle]
    exact ⟨hiff.mp hle, hhigh⟩
  · rw [if_neg hle, sub_add_cancel]
    exact ⟨hlow, not_le.mp fun h => hle (hiff.mpr h)⟩

/-- Two powers of two around a number tell its logarithm. -/
theorem log2Ratio_eq {num den : ℕ} (hnum : 0 < num) (hden : 0 < den) {k : ℤ}
    (hlow : (2 : ℚ) ^ k ≤ num / den) (hhigh : (num / den : ℚ) < 2 ^ (k + 1)) :
    log2Ratio num den = k := by
  obtain ⟨hlow', hhigh'⟩ := log2Ratio_spec hnum hden
  have hlt := (zpow_lt_zpow_iff_right₀ (one_lt_two : (1 : ℚ) < 2)).mp (hlow.trans_lt hhigh')
  have hgt := (zpow_lt_zpow_iff_right₀ (one_lt_two : (1 : ℚ) < 2)).mp (hlow'.trans_lt hhigh)
  omega

/-- The bits of a fraction, where it is known which step of the doubles it is on and where between
the multiples of that step. -/
theorem nearestBits_eq {num den m : ℕ} (hnum : 0 < num) (hden : 0 < den) {step : ℤ}
    (hstep : max (log2Ratio num den - 52) (-1074) = step)
    (hlow : (m : ℚ) - 1 / 2 ≤ num / den / 2 ^ step) (hhigh : num / den / 2 ^ step ≤ (m : ℚ) + 1 / 2)
    (hodd : m % 2 = 1 →
      (m : ℚ) - 1 / 2 < num / den / 2 ^ step ∧ num / den / 2 ^ step < (m : ℚ) + 1 / 2) :
    nearestBits num den =
      min ((step + 1074).toNat * exponentWeight + m) (topExponent * exponentWeight) := by
  obtain ⟨hpow, -⟩ := powRatio_pos two_pos step
  have hcast := cast_div_powRatio two_pos num den step
  rw [Nat.cast_ofNat] at hcast
  rw [← hcast] at hlow hhigh hodd
  have hround : roundDiv .toEven (num * (powRatio 2 step).2) (den * (powRatio 2 step).1) = m :=
    roundDiv_toEven_of_cast (Nat.mul_pos hden hpow) hlow hhigh hodd
  simp only [nearestBits, if_neg hnum.ne', hstep, hround]

/-- The magnitude with given exponent and fraction fields. -/
def ofFields (biased fraction : ℕ) : Binary where
  mantissa := if biased = 0 then fraction else fraction + exponentWeight
  exponent := (max biased 1 : ℕ) - 1075
  narrow := fraction == 0 && decide (1 < biased)

theorem magnitude_eq (x : Float) : magnitude x = ofFields (biased x) (fraction x) := rfl

section

variable {E f num den : ℕ} (hf : f < exponentWeight)

theorem cast_exponentWeight : (exponentWeight : ℚ) = 2 ^ (52 : ℤ) := by
  norm_num [exponentWeight]

include hf in
theorem mantissa_ofFields_lt : ((ofFields E f).mantissa : ℚ) + 1 / 2 < 2 ^ (53 : ℤ) := by
  have hle : (ofFields E f).mantissa + 1 ≤ 2 * exponentWeight := by
    simp only [ofFields]
    split <;> omega
  have hcast : ((ofFields E f).mantissa : ℚ) + 1 ≤ 2 * exponentWeight := by exact_mod_cast hle
  have htwo : (2 : ℚ) * exponentWeight = 2 ^ (53 : ℤ) := by norm_num [exponentWeight]
  linarith

include hf in
theorem lt_of_attracts {v : ℚ} (h : (ofFields E f).Attracts v) :
    v < 2 ^ ((ofFields E f).exponent + 53) := by
  have hpos : (0 : ℚ) < 2 ^ (ofFields E f).exponent := by positivity
  have hlt := h.high.trans_lt (mantissa_ofFields_lt hf)
  rw [div_lt_iff₀ hpos, mul_comm] at hlt
  rwa [zpow_add₀ two_ne_zero]

/-- Below the least number with the full mantissa there is only the power of two itself to round to.
-/
theorem narrow_of_lt {v : ℚ} (hE : 1 < E) (h : (ofFields E f).Attracts v)
    (hv : v < 2 ^ ((ofFields E f).exponent + 52)) :
    f = 0 ∧ (exponentWeight : ℚ) - 1 / 4 ≤ v / 2 ^ (ofFields E f).exponent := by
  have hpos : (0 : ℚ) < 2 ^ (ofFields E f).exponent := by positivity
  rw [zpow_add₀ two_ne_zero, mul_comm, ← div_lt_iff₀ hpos, ← cast_exponentWeight] at hv
  have hm : (ofFields E f).mantissa = f + exponentWeight := if_neg (by omega)
  have hlow := h.low
  rw [hm] at hlow
  push_cast at hlow
  by_cases hzero : f = 0
  · have hnarrow : (ofFields E f).narrow = true := by simp [ofFields, hzero, hE]
    have hcast : (f : ℚ) = 0 := by exact_mod_cast hzero
    rw [hnarrow, if_pos rfl] at hlow
    exact ⟨hzero, by linarith⟩
  · have hnarrow : (ofFields E f).narrow = false := by simp [ofFields, hzero]
    rw [hnarrow] at hlow
    have hone : (1 : ℚ) ≤ f := by exact_mod_cast Nat.one_le_iff_ne_zero.mpr hzero
    norm_num at hlow
    linarith

/-- What is nearer to zero than to the least double rounds to zero only. -/
theorem zero_of_attracts {v : ℚ} (h : (ofFields E f).Attracts v) (hv : v < 2 ^ (-1075 : ℤ)) :
    E = 0 ∧ f = 0 := by
  have hexp : (ofFields E f).exponent = (max E 1 : ℕ) - 1075 := rfl
  have hpos : (0 : ℚ) < 2 ^ (ofFields E f).exponent := by positivity
  have hhalf : v / 2 ^ (ofFields E f).exponent < 1 / 2 := by
    rw [div_lt_iff₀ hpos]
    calc
      v < 2 ^ (-1075 : ℤ) := hv
      _ ≤ 2 ^ ((-1 : ℤ) + (ofFields E f).exponent) :=
        zpow_le_zpow_right₀ one_le_two (by omega)
      _ = 1 / 2 * 2 ^ (ofFields E f).exponent := by
        rw [zpow_add₀ two_ne_zero]
        norm_num
  have hlow := h.low
  have hlt : ((ofFields E f).mantissa : ℚ) < 1 := by
    split at hlow <;> linarith
  have hzero : (ofFields E f).mantissa = 0 := by
    have hlt' : (ofFields E f).mantissa < 1 := by exact_mod_cast hlt
    omega
  have hweight : 0 < exponentWeight := by decide
  simp only [ofFields] at hzero
  split at hzero <;> omega

theorem bits_le (hE : E < topExponent) (hf : f < exponentWeight) :
    E * exponentWeight + f ≤ topExponent * exponentWeight := by
  have hle : (E + 1) * exponentWeight ≤ topExponent * exponentWeight :=
    Nat.mul_le_mul_right exponentWeight hE
  rw [Nat.succ_mul] at hle
  omega

/-- On the step of the double itself, the fraction rounds to its mantissa. -/
theorem nearestBits_of_step (hE : E < topExponent) (hf : f < exponentWeight) (hnum : 0 < num)
    (hden : 0 < den) (h : (ofFields E f).Attracts (num / den))
    (hstep : max (log2Ratio num den - 52) (-1074) = (ofFields E f).exponent) :
    nearestBits num den = E * exponentWeight + f := by
  have hlow : ((ofFields E f).mantissa : ℚ) - 1 / 2 ≤ num / den / 2 ^ (ofFields E f).exponent := by
    have hlow := h.low
    split at hlow <;> linarith
  rw [nearestBits_eq hnum hden hstep hlow h.high h.odd]
  have hexp : (ofFields E f).exponent = (max E 1 : ℕ) - 1075 := rfl
  have hm : (ofFields E f).mantissa = if E = 0 then f else f + exponentWeight := rfl
  have hfield : ((ofFields E f).exponent + 1074).toNat = max E 1 - 1 := by omega
  have hbits : (max E 1 - 1) * exponentWeight + (if E = 0 then f else f + exponentWeight) =
      E * exponentWeight + f := by
    by_cases hzero : E = 0
    · simp [hzero]
    · obtain ⟨n, rfl⟩ := Nat.exists_eq_succ_of_ne_zero hzero
      rw [if_neg hzero, Nat.succ_mul, Nat.max_eq_left (by omega), Nat.succ_sub_one]
      omega
  rw [hfield, hm, hbits, Nat.min_eq_left (bits_le hE hf)]

/-- Below a power of two the step is half as large, and the mantissa carries into the exponent. -/
theorem nearestBits_of_carry (hE : 1 < E) (hE' : E < topExponent) (hnum : 0 < num) (hden : 0 < den)
    (h : (ofFields E f).Attracts (num / den))
    (hlt : (num / den : ℚ) < 2 ^ ((ofFields E f).exponent + 52)) :
    nearestBits num den = E * exponentWeight + f := by
  obtain ⟨rfl, hquarter⟩ := narrow_of_lt hE h hlt
  have hexp : (ofFields E 0).exponent = (max E 1 : ℕ) - 1075 := rfl
  generalize (ofFields E 0).exponent = q at hexp hquarter hlt
  have hpos : (0 : ℚ) < 2 ^ q := by positivity
  have hhalf : (num / den : ℚ) / 2 ^ (q - 1) = 2 * (num / den / 2 ^ q) := by
    rw [zpow_sub_one₀ two_ne_zero]
    field_simp
  have hupper : (num / den / 2 ^ q : ℚ) < exponentWeight := by
    rw [div_lt_iff₀ hpos, cast_exponentWeight, mul_comm, ← zpow_add₀ two_ne_zero]
    exact hlt
  have hlog : log2Ratio num den = q + 51 := by
    refine log2Ratio_eq hnum hden ?_ ?_
    · have hlarge : (2 : ℚ) ^ (51 : ℤ) ≤ num / den / 2 ^ q := by
        refine le_trans ?_ hquarter
        norm_num [exponentWeight]
      rwa [le_div_iff₀ hpos, mul_comm, ← zpow_add₀ two_ne_zero] at hlarge
    · rw [add_assoc]
      exact hlt
  have hstep : max (log2Ratio num den - 52) (-1074) = q - 1 := by omega
  have hbits := nearestBits_eq (m := 2 * exponentWeight) hnum hden hstep
    (by rw [hhalf]; push_cast; linarith) (by rw [hhalf]; push_cast; linarith) (by omega)
  have hfield : (q - 1 + 1074).toNat = E - 2 := by omega
  have hsum : (E - 2) * exponentWeight + 2 * exponentWeight = E * exponentWeight + 0 := by
    rw [Nat.add_zero, ← Nat.add_mul, Nat.sub_add_cancel (by omega)]
  rw [hbits, hfield, hsum, Nat.min_eq_left (bits_le hE' (by decide))]

/-- The bits put together for a fraction that rounds to a double are the bits of the double, without
its sign. -/
theorem nearestBits_of_attracts (hE : E < topExponent) (hf : f < exponentWeight) (hden : 0 < den)
    (h : (ofFields E f).Attracts (num / den)) :
    nearestBits num den = E * exponentWeight + f := by
  rcases Nat.eq_zero_or_pos num with rfl | hnum
  · rw [Nat.cast_zero, zero_div] at h
    obtain ⟨rfl, rfl⟩ := zero_of_attracts h (by positivity)
    simp [nearestBits]
  · have hexp : (ofFields E f).exponent = (max E 1 : ℕ) - 1075 := rfl
    obtain ⟨hlow, -⟩ := log2Ratio_spec hnum hden
    have hk := (zpow_lt_zpow_iff_right₀ (one_lt_two : (1 : ℚ) < 2)).mp
      (hlow.trans_lt (lt_of_attracts hf h))
    by_cases hone : E ≤ 1
    · exact nearestBits_of_step hE hf hnum hden h (by omega)
    · by_cases hlt : (num / den : ℚ) < 2 ^ ((ofFields E f).exponent + 52)
      · exact nearestBits_of_carry (by omega) hE hnum hden h hlt
      · have hlog : log2Ratio num den = (ofFields E f).exponent + 52 := by
          refine log2Ratio_eq hnum hden (not_lt.mp hlt) ?_
          rw [add_assoc]
          exact lt_of_attracts hf h
        exact nearestBits_of_step hE hf hnum hden h (by omega)

theorem two_pow_lt_ten_pow : (2 : ℚ) ^ (1023 : ℤ) < 10 ^ (308 : ℤ) := by
  -- The two powers are out of reach, so they are compared by their eleventh roots.
  have hroot : (2 : ℚ) ^ (93 : ℤ) < 10 ^ (28 : ℤ) := by norm_num
  have hpow : ((2 : ℚ) ^ (93 : ℤ)) ^ 11 < (10 ^ (28 : ℤ)) ^ 11 := by gcongr
  rwa [← zpow_natCast, ← zpow_natCast, ← zpow_mul, ← zpow_mul] at hpow

theorem ten_pow_lt_two_pow : (10 : ℚ) ^ (-331 : ℤ) < 2 ^ (-1075 : ℤ) := by
  have hsmall : (2 : ℚ) ^ (52 : ℤ) < 10 ^ (16 : ℤ) := by norm_num
  have hlt : (2 : ℚ) ^ (1075 : ℤ) < 10 ^ (331 : ℤ) := by
    calc
      (2 : ℚ) ^ (1075 : ℤ) = 2 ^ (1023 : ℤ) * 2 ^ (52 : ℤ) := by
        rw [← zpow_add₀ two_ne_zero]
        rfl
      _ < 10 ^ (308 : ℤ) * 10 ^ (16 : ℤ) := by
        gcongr
        exact two_pow_lt_ten_pow
      _ ≤ 10 ^ (331 : ℤ) := by
        rw [← zpow_add₀ (by norm_num)]
        exact zpow_le_zpow_right₀ (by norm_num) (by norm_num)
  rw [zpow_neg, zpow_neg]
  exact (inv_lt_inv₀ (by positivity) (by positivity)).mpr hlt

/-- No decimal number that rounds to a double is as large as the power of ten that is never formed.
-/
theorem top_le_of_attracts (hE : E < topExponent) (hf : f < exponentWeight) {d : Decimal}
    (hd : d.digits ≠ 0) (h : (ofFields E f).Attracts d.value) :
    (Decimal.digitCount d.digits : ℤ) + d.exponent ≤ 310 := by
  by_contra hlt
  have hexp : (ofFields E f).exponent = (max E 1 : ℕ) - 1075 := rfl
  have htop : E < 2047 := hE
  have hvalue : d.value < d.value := by
    calc
      d.value < 2 ^ ((ofFields E f).exponent + 53) := lt_of_attracts hf h
      _ ≤ 2 ^ ((1023 : ℤ) + 1) := zpow_le_zpow_right₀ one_le_two (by omega)
      _ = 2 ^ (1023 : ℤ) * 2 := zpow_add_one₀ two_ne_zero _
      _ ≤ 10 ^ (308 : ℤ) * 10 := by
        gcongr
        · exact two_pow_lt_ten_pow.le
        · norm_num
      _ = 10 ^ ((308 : ℤ) + 1) := (zpow_add_one₀ (by norm_num) _).symm
      _ ≤ 10 ^ ((Decimal.digitCount d.digits : ℤ) + d.exponent - 1) :=
        zpow_le_zpow_right₀ (by norm_num) (by omega)
      _ ≤ d.value := Decimal.le_value hd
  exact lt_irrefl _ hvalue

theorem ofDecimal_of_attracts (hE : E < topExponent) (hf : f < exponentWeight) {d : Decimal}
    (h : (ofFields E f).Attracts d.value) (negative : Bool) :
    ofDecimal negative d = Float.ofBits (UInt64.ofNat
      (if negative then signWeight + (E * exponentWeight + f) else E * exponentWeight + f)) := by
  have hbits : (if d.digits = 0 ||
        decide ((Decimal.digitCount d.digits : ℤ) + d.exponent < -330) then 0
      else if 310 < (Decimal.digitCount d.digits : ℤ) + d.exponent then topExponent * exponentWeight
      else nearestBits (d.digits * (powRatio 10 d.exponent).1) (powRatio 10 d.exponent).2) =
      E * exponentWeight + f := by
    by_cases hzero : d.digits = 0
    · have hvalue : d.value = 0 := by simp [Decimal.value, hzero]
      rw [hvalue] at h
      obtain ⟨rfl, rfl⟩ := zero_of_attracts h (by positivity)
      simp [hzero]
    · by_cases hsmall : (Decimal.digitCount d.digits : ℤ) + d.exponent < -330
      · have hvalue : d.value < 2 ^ (-1075 : ℤ) := by
          calc
            d.value < 10 ^ ((Decimal.digitCount d.digits : ℤ) + d.exponent) := d.value_lt
            _ ≤ 10 ^ (-331 : ℤ) := zpow_le_zpow_right₀ (by norm_num) (by omega)
            _ < 2 ^ (-1075 : ℤ) := ten_pow_lt_two_pow
        obtain ⟨rfl, rfl⟩ := zero_of_attracts h hvalue
        simp [hsmall]
      · have htop := top_le_of_attracts hE hf hzero h
        have hvalue : d.value = ((d.digits * (powRatio 10 d.exponent).1 : ℕ) : ℚ) /
            (powRatio 10 d.exponent).2 := by
          have hcast := cast_powRatio (by norm_num : 0 < 10) d.exponent
          rw [Nat.cast_ofNat] at hcast
          rw [Decimal.value, ← hcast]
          push_cast
          ring
        rw [hvalue] at h
        rw [if_neg (by simp [hzero, hsmall]), if_neg (by omega)]
        exact nearestBits_of_attracts hE hf (powRatio_pos (by norm_num) _).2 h
  simp only [ofDecimal, hbits]

end

end Double

end PlotPane
