import Mathlib
import PlotPane.Proofs.Sums

/-!
# Steps to both sides of a double

A rectangle around a point is computed by a step to both sides of each coordinate. The two ends are
rounded, which keeps their order. But rounding may take an end beyond the largest double, or bring
both ends back to where the step began. Here it is settled when neither happens. The steps are
products of positive doubles: they are never negative, and they may be zero or infinite.
-/

namespace PlotPane

open Float.Model Float.Model.UnpackedFloat

theorem Binary.Attracts.half_le {b : Binary} {v : ℚ} (h : b.Attracts v) :
    (b.mantissa : ℚ) - 1 / 2 ≤ v / 2 ^ b.exponent := by
  have hquarter : (if b.narrow then 1 / 4 else 1 / 2 : ℚ) ≤ 1 / 2 := by
    split <;> norm_num
  linarith [h.low]

/-- A magnitude reaches at least as far up as down. -/
theorem Binary.Attracts.mirror {b : Binary} {h : ℚ} (hh : 0 ≤ h)
    (hb : b.Attracts (b.mantissa * 2 ^ b.exponent - h)) :
    b.Attracts (b.mantissa * 2 ^ b.exponent + h) := by
  have hpos : (0 : ℚ) < 2 ^ b.exponent := by positivity
  have hstep : 0 ≤ h / 2 ^ b.exponent := by positivity
  have hself : (b.mantissa * 2 ^ b.exponent : ℚ) / 2 ^ b.exponent = b.mantissa :=
    mul_div_cancel_right₀ _ hpos.ne'
  have hdown : (0 : ℚ) ≤ (if b.narrow then 1 / 4 else 1 / 2) := by
    split <;> norm_num
  have hhalf := hb.half_le
  have hodd := hb.odd
  rw [sub_div, hself] at hhalf hodd
  refine ⟨?_, ?_, fun hm => ?_⟩
  · rw [add_div, hself]
    linarith
  · rw [add_div, hself]
    linarith
  · obtain ⟨hbelow, -⟩ := hodd hm
    rw [add_div, hself]
    exact ⟨by linarith, by linarith⟩

namespace Double

section

variable {x : Float} (hx : x.isFinite = true) {h : ℚ} (hh : 0 ≤ h)

theorem abs_value (x : Float) :
    |value x| = (magnitude x).mantissa * 2 ^ (magnitude x).exponent := by
  have hnonneg : (0 : ℚ) ≤ (magnitude x).mantissa * 2 ^ (magnitude x).exponent := by positivity
  rw [value]
  split
  · rw [neg_one_mul, abs_neg, abs_of_nonneg hnonneg]
  · rw [one_mul, abs_of_nonneg hnonneg]

include hx hh

/-- The place of the double itself lies between those of the two ends, so they agree only there. -/
theorem nearestPlace_sub_eq_add_iff :
    nearestPlace (|value x| - h) = nearestPlace (|value x| + h) ↔
      (magnitude x).Attracts (|value x| - h) := by
  have hE : biased x < topExponent := biased_lt_of_isFinite hx
  have hf : fraction x < exponentWeight := Nat.mod_lt _ (by decide)
  have hself : nearestPlace |value x| = (biased x * exponentWeight + fraction x : ℕ) := by
    rw [nearestPlace_eq_iff hE hf, abs_value]
    exact Binary.attracts_self _
  have hbelow : nearestPlace (|value x| - h) ≤ nearestPlace |value x| :=
    nearestPlace_mono (by linarith)
  have habove : nearestPlace |value x| ≤ nearestPlace (|value x| + h) :=
    nearestPlace_mono (by linarith)
  rw [magnitude_eq, ← nearestPlace_eq_iff hE hf]
  constructor
  · intro heq
    omega
  · intro hsub
    have hmirror : (magnitude x).Attracts (|value x| + h) := by
      rw [nearestPlace_eq_iff hE hf, ← magnitude_eq, abs_value] at hsub
      rw [abs_value]
      exact hsub.mirror hh
    rw [hsub]
    exact ((nearestPlace_eq_iff hE hf).mpr hmirror).symm

/-- The two ends are the same double exactly if the step towards zero is rounded back. -/
theorem nearestPlace_sub_lt_add_iff :
    nearestPlace (value x - h) < nearestPlace (value x + h) ↔
      ¬ (magnitude x).Attracts (|value x| - h) := by
  have hle : nearestPlace (value x - h) ≤ nearestPlace (value x + h) :=
    nearestPlace_mono (by linarith)
  rw [← nearestPlace_sub_eq_add_iff hx hh, lt_iff_le_and_ne, and_iff_right hle, Ne, not_iff_not]
  rcases abs_choice (value x) with habs | habs
  · rw [habs]
  · have hsub : value x - h = -(|value x| + h) := by linarith
    have hadd : value x + h = -(|value x| - h) := by linarith
    rw [hsub, hadd, nearestPlace_neg, nearestPlace_neg, neg_inj, eq_comm]

end

/-- Zero or more, or infinity, and with no minus sign. -/
def Forward : UnpackedFloat → Prop
  | .notANumber => False
  | .infinity s | .zero s | .finite s _ _ _ => s = .positive

theorem forward_packComponents {E : BitVec 11} (f : BitVec 52) (hE : E ≠ -1#11) :
    Forward (UnpackedFloat.unpack .binary64 (packComponents .binary64 .positive E f)) := by
  simp only [UnpackedFloat.unpack, unpackExponent_packComponents, unpackMantissa_packComponents,
    unpackSign_packComponents, Sign.ofBitVec_toBitVec, if_neg hE]
  split
  · split
    · rfl
    · rfl
  · rfl

theorem forward_pack {u : UnpackedFloat} (hu : Forward u) :
    Forward (Float.Model.pack u).unpack := by
  cases u with
  | notANumber => cases hu
  | infinity s =>
      cases hu
      rfl
  | zero s =>
      cases hu
      rfl
  | finite s m e hm =>
      cases hu
      simp only [Float.Model.unpack, Float.Model.pack, UnpackedFloat.pack, UInt64.toBitVec_ofBitVec]
      split
      · rfl
      · next hlt =>
          split
          · refine forward_packComponents _ ?_
            rw [Ne, ← BitVec.toNat_inj, BitVec.toNat_ofNat, Nat.mod_eq_of_lt (by omega)]
            exact ne_of_lt (Nat.lt_pred_of_succ_lt (not_le.mp hlt))
          · exact forward_packComponents _ (by decide)

theorem forward_roundWithAccuracy (m : ℕ) (e : ℤ) (acc : Accuracy) :
    Forward (roundWithAccuracy .binary64 .positive m e acc) := by
  simp only [roundWithAccuracy]
  split
  · rfl
  · rfl

/-- A finite double above zero. -/
theorem exists_unpack_eq {x : Float} (hx : x.isFinite = true) (hpos : 0.0 < x) :
    ∃ m e hm, x.toModel.unpack = .finite .positive m e hm := by
  have hzero : (0.0 : Float).toModel.unpack = .zero .positive := rfl
  have hcanonical := canonical_of_isFinite hx
  have hfinite : x.toModel.unpack.isFinite = true := hx
  rw [lt_iff_place_lt (canonical_of_isFinite isFinite_zero) hcanonical, hzero] at hpos
  generalize x.toModel.unpack = u at *
  cases u with
  | notANumber => cases hcanonical
  | infinity s => cases hfinite
  | zero s => exact absurd hpos (lt_irrefl 0)
  | finite s m e hm =>
      cases s with
      | positive => exact ⟨m, e, hm, rfl⟩
      | negative =>
          have hbounds := Fits.place_bounds hcanonical hm
          have hneg : (0 : ℤ) < -((e + 1074) * exponentWeight + m) := hpos
          omega

theorem forward_of_pos {x : Float} (hx : x.isFinite = true) (hpos : 0.0 < x) :
    Forward x.toModel.unpack := by
  obtain ⟨m, e, hm, hunpack⟩ := exists_unpack_eq hx hpos
  rw [hunpack]
  rfl

theorem forward_div {x y : Float} (hx : x.isFinite = true) (hx' : 0.0 < x)
    (hy : y.isFinite = true) (hy' : 0.0 < y) : Forward (x / y).toModel.unpack := by
  obtain ⟨m, e, hm, hunpack⟩ := exists_unpack_eq hx hx'
  obtain ⟨m', e', hm', hunpack'⟩ := exists_unpack_eq hy hy'
  have hforward : Forward (UnpackedFloat.div .binary64 x.toModel.unpack y.toModel.unpack) := by
    rw [hunpack, hunpack']
    exact forward_roundWithAccuracy _ _ _
  exact forward_pack hforward

theorem forward_mul {x y : Float} (hx : x.isFinite = true) (hx' : 0.0 < x)
    (hy : Forward y.toModel.unpack) : Forward (x * y).toModel.unpack := by
  obtain ⟨m, e, hm, hunpack⟩ := exists_unpack_eq hx hx'
  have hforward : Forward (UnpackedFloat.mul .binary64 x.toModel.unpack y.toModel.unpack) := by
    rw [hunpack]
    generalize y.toModel.unpack = w at *
    cases w with
    | notANumber => cases hy
    | infinity s =>
        cases hy
        rfl
    | zero s =>
        cases hy
        rfl
    | finite s m' e' hm' =>
        cases hy
        exact forward_roundWithAccuracy _ _ _
  exact forward_pack hforward

theorem value_nonneg {x : Float} (hx : x.isFinite = true) (hforward : Forward x.toModel.unpack) :
    0 ≤ value x := by
  rw [← unpackedValue_unpack hx]
  generalize x.toModel.unpack = u at *
  cases u with
  | finite s m e hm =>
      cases hforward
      have hcast : (0 : ℚ) ≤ m * 2 ^ e := by positivity
      exact hcast
  | _ => exact le_rfl

theorem unpack_eq_infinity {x : Float} (hx : ¬ x.isFinite = true)
    (hforward : Forward x.toModel.unpack) : x.toModel.unpack = .infinity .positive := by
  have hinfinite : ¬ x.toModel.unpack.isFinite = true := hx
  generalize x.toModel.unpack = u at *
  cases u with
  | notANumber => cases hforward
  | infinity s =>
      cases hforward
      rfl
  | zero s => exact absurd rfl hinfinite
  | finite s m e hm => exact absurd rfl hinfinite

theorem abs_sub_lt_and_abs_add_lt_iff {a b r : ℚ} (hb : 0 ≤ b) :
    |a - b| < r ∧ |a + b| < r ↔ |a| + b < r := by
  constructor
  · rintro ⟨hsub, hadd⟩
    rcases abs_choice a with habs | habs
    · rw [habs]
      exact (le_abs_self _).trans_lt hadd
    · rw [habs]
      have hneg : -a + b ≤ |a - b| := by linarith [neg_le_abs (a - b)]
      exact hneg.trans_lt hsub
  · intro h
    constructor
    · have hle := abs_sub a b
      rw [abs_of_nonneg hb] at hle
      exact hle.trans_lt h
    · have hle := abs_add_le a b
      rw [abs_of_nonneg hb] at hle
      exact hle.trans_lt h

/-- A step of `h` to both sides of `c` ends at two finite doubles that differ. -/
structure Spans (c h : Float) : Prop where
  finite : h.isFinite = true
  within : |value c| + value h < overflow
  /-- The step is not lost beside the double. -/
  kept : ¬ (magnitude c).Attracts (|value c| - value h)

/-- A step that is more than the `2 ^ 53`-th part of the double, and so cannot be lost beside it. -/
structure Clear (c h : Float) : Prop where
  finite : h.isFinite = true
  within : |value c| + value h < overflow
  large : |value c| < 2 ^ 53 * value h

section

variable {c h : Float} (hc : c.isFinite = true) (hh : Forward h.toModel.unpack)

include hc hh

theorem unpack_ends_of_infinite (hinfinite : ¬ h.isFinite = true) :
    (c - h).toModel.unpack = .infinity .negative ∧
      (c + h).toModel.unpack = .infinity .positive := by
  have hunpack := unpack_eq_infinity hinfinite hh
  have hfinite : c.toModel.unpack.isFinite = true := hc
  have hadd (s : Sign) : UnpackedFloat.add .binary64 c.toModel.unpack (.infinity s) =
      .infinity s := by
    generalize c.toModel.unpack = u at *
    cases u with
    | notANumber => cases hfinite
    | infinity s => cases hfinite
    | zero s => rfl
    | finite s m e hm => rfl
  change (Float.Model.pack (UnpackedFloat.sub .binary64 c.toModel.unpack h.toModel.unpack)).unpack =
      _ ∧
    (Float.Model.pack (UnpackedFloat.add .binary64 c.toModel.unpack h.toModel.unpack)).unpack = _
  rw [sub_unpacked, hunpack, UnpackedFloat.neg, hadd, hadd]
  exact ⟨rfl, rfl⟩

/-- Rounding keeps the order of the ends. -/
theorem sub_le_add : c - h ≤ c + h := by
  by_cases hfinite : h.isFinite = true
  · obtain ⟨hsub, hsubPlace⟩ := place_sub hc hfinite
    obtain ⟨hadd, haddPlace⟩ := place_add hc hfinite
    rw [le_iff_place_le hsub hadd, hsubPlace, haddPlace]
    exact nearestPlace_mono (by linarith [value_nonneg hfinite hh])
  · obtain ⟨hsub, hadd⟩ := unpack_ends_of_infinite hc hh hfinite
    rw [le_iff_place_le (by rw [hsub]; trivial) (by rw [hadd]; trivial), hsub, hadd]
    decide

/-- The condition on a step, in the numbers that the doubles stand for, is what the ends show. -/
theorem spans_iff :
    ((c - h).isFinite = true ∧ (c + h).isFinite = true ∧ c - h < c + h) ↔ Spans c h := by
  by_cases hfinite : h.isFinite = true
  · have hnonneg := value_nonneg hfinite hh
    obtain ⟨hsub, hsubPlace⟩ := place_sub hc hfinite
    obtain ⟨hadd, haddPlace⟩ := place_add hc hfinite
    rw [isFinite_sub_iff hc hfinite, isFinite_add_iff hc hfinite, lt_iff_place_lt hsub hadd,
      hsubPlace, haddPlace, nearestPlace_sub_lt_add_iff hc hnonneg, ← and_assoc,
      abs_sub_lt_and_abs_add_lt_iff hnonneg]
    exact ⟨fun ⟨hlt, hkept⟩ => ⟨hfinite, hlt, hkept⟩, fun hspans => ⟨hspans.within, hspans.kept⟩⟩
  · obtain ⟨hsub, hadd⟩ := unpack_ends_of_infinite hc hh hfinite
    refine iff_of_false ?_ fun hspans => hfinite hspans.finite
    rintro ⟨hleft, -⟩
    have hleft' : (c - h).toModel.unpack.isFinite = true := hleft
    rw [hsub] at hleft'
    cases hleft'

end

theorem least_le_value {x : Float} (hx : x.isFinite = true) (hpos : 0 < value x) :
    2 ^ (-1074 : ℤ) ≤ value x := by
  have hge := (fits_magnitude (biased_ne_of_isFinite hx)).ge
  have habs := abs_of_pos hpos
  rw [← habs, abs_value] at hpos
  rw [← habs, abs_value]
  have hmantissa : (1 : ℚ) ≤ (magnitude x).mantissa := by
    have hne : (magnitude x).mantissa ≠ 0 := by
      intro hzero
      rw [hzero, Nat.cast_zero, zero_mul] at hpos
      exact lt_irrefl 0 hpos
    exact_mod_cast Nat.one_le_iff_ne_zero.mpr hne
  calc
    (2 : ℚ) ^ (-1074 : ℤ) ≤ 2 ^ (magnitude x).exponent := zpow_le_zpow_right₀ one_le_two hge
    _ ≤ (magnitude x).mantissa * 2 ^ (magnitude x).exponent :=
      le_mul_of_one_le_left (by positivity) hmantissa

theorem Clear.spans {c h : Float} (hc : c.isFinite = true) (hclear : Clear c h) : Spans c h := by
  refine ⟨hclear.finite, hclear.within, fun hattracts => ?_⟩
  have hlarge := hclear.large
  have hfits := fits_magnitude (biased_ne_of_isFinite hc)
  have hpos : (0 : ℚ) < 2 ^ (magnitude c).exponent := by positivity
  -- What is rounded back is at most half of the last digit.
  have hhalf : value h ≤ 1 / 2 * 2 ^ (magnitude c).exponent := by
    have hlow := hattracts.half_le
    rw [abs_value, sub_div, mul_div_cancel_right₀ _ hpos.ne'] at hlow
    rw [← div_le_iff₀ hpos]
    linarith
  by_cases hbottom : -1074 < (magnitude c).exponent
  · have hfull : 2 ^ 52 * 2 ^ (magnitude c).exponent ≤ |value c| := by
      have hmantissa : (2 : ℚ) ^ 52 ≤ (magnitude c).mantissa := by
        exact_mod_cast hfits.full hbottom
      rw [abs_value]
      gcongr
    linarith
  · have hleast : 2 ^ (-1074 : ℤ) ≤ value h := by
      refine least_le_value hclear.finite ?_
      linarith [abs_nonneg (value c)]
    have hexponent : (magnitude c).exponent = -1074 := by
      have hge := hfits.ge
      omega
    rw [hexponent] at hpos hhalf
    linarith

end Double

end PlotPane
