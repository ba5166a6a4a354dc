import Mathlib
import PlotPane.Proofs.Doubles

/-!
# Sums and differences of doubles

The mantissas of two doubles are added exactly. The sum is then shifted to the step on which the
doubles of its size lie, and two residual bits remember what was shifted out, which is all that has
to be known to round it. So the sum and the difference of finite doubles have the place of the
double nearest to the exact result, and they are finite exactly if it is not infinity.
-/

namespace PlotPane.Double

open Float.Model Float.Model.UnpackedFloat

/-- What a mantissa shows with its two residual bits. -/
def Shows (em : ExtendedMantissa) (q : ℚ) : Prop :=
  match em.roundBit, em.stickyBit with
  | false, false => q = em.mantissa
  | false, true => (em.mantissa : ℚ) < q ∧ q < em.mantissa + 1 / 2
  | true, false => q = em.mantissa + 1 / 2
  | true, true => (em.mantissa : ℚ) + 1 / 2 < q ∧ q < em.mantissa + 1

theorem shows_exact (m : ℕ) : Shows (ExtendedMantissa.ofMantissaAndAccuracy m .exact) m := rfl

theorem Shows.shiftRightOne {em : ExtendedMantissa} {q : ℚ} (h : Shows em q) :
    Shows em.shiftRightOne (q / 2) := by
  obtain ⟨m, round, sticky⟩ := em
  obtain ⟨n, rfl | rfl⟩ : ∃ n, m = 2 * n ∨ m = 2 * n + 1 := ⟨m / 2, by omega⟩
  · have hround : (2 * n % 2 != 0) = false := by simp
    have hhalf : 2 * n / 2 = n := by omega
    cases round <;> cases sticky <;>
      simp only [Shows, ExtendedMantissa.shiftRightOne, hround, hhalf, Nat.cast_mul, Nat.cast_ofNat,
        Bool.or_true, Bool.or_false] at h ⊢
    · linarith
    · exact ⟨by linarith, by linarith⟩
    · exact ⟨by linarith, by linarith⟩
    · exact ⟨by linarith, by linarith⟩
  · have hround : ((2 * n + 1) % 2 != 0) = true := by simp
    have hhalf : (2 * n + 1) / 2 = n := by omega
    cases round <;> cases sticky <;>
      simp only [Shows, ExtendedMantissa.shiftRightOne, hround, hhalf, Nat.cast_add, Nat.cast_mul,
        Nat.cast_ofNat, Nat.cast_one, Bool.or_true, Bool.or_false] at h ⊢
    · linarith
    · exact ⟨by linarith, by linarith⟩
    · exact ⟨by linarith, by linarith⟩
    · exact ⟨by linarith, by linarith⟩

theorem Shows.shiftRight {em : ExtendedMantissa} {q : ℚ} (h : Shows em q) (k : ℕ) :
    Shows (em >>> k) (q / 2 ^ k) := by
  change Shows (k.repeat ExtendedMantissa.shiftRightOne em) _
  induction k with
  | zero => simpa [Nat.repeat] using h
  | succ k ih =>
      rw [Nat.repeat, pow_succ, ← div_div]
      exact ih.shiftRightOne

/-- The rounded mantissa is nearest to what is shown. -/
theorem Shows.rounded {em : ExtendedMantissa} {q : ℚ} (h : Shows em q) :
    (em.roundedMantissa : ℚ) - 1 / 2 ≤ q ∧ q ≤ em.roundedMantissa + 1 / 2 ∧
      (em.roundedMantissa % 2 = 1 →
        (em.roundedMantissa : ℚ) - 1 / 2 < q ∧ q < em.roundedMantissa + 1 / 2) := by
  obtain ⟨m, round, sticky⟩ := em
  cases round <;> cases sticky <;>
    simp only [Shows, ExtendedMantissa.roundedMantissa, ExtendedMantissa.accuracy,
      Accuracy.roundToNearestEven] at h ⊢
  · exact ⟨by linarith, by linarith, fun _ => ⟨by linarith, by linarith⟩⟩
  · exact ⟨by linarith, by linarith, fun _ => ⟨by linarith, by linarith⟩⟩
  · rcases Nat.mod_two_eq_zero_or_one m with hm | hm
    · rw [hm]
      exact ⟨by push_cast; linarith, by push_cast; linarith, fun h => by omega⟩
    · rw [hm]
      exact ⟨by push_cast; linarith, by push_cast; linarith, fun h => by omega⟩
  · push_cast
    exact ⟨by linarith, by linarith, fun _ => ⟨by linarith, by linarith⟩⟩

theorem targetExponent_eq (m : ℕ) (e : ℤ) :
    Format.binary64.targetExponent (totalExponent m e) = max ((m.log2 : ℤ) + e - 52) (-1074) := by
  simp only [Format.targetExponent, totalExponent, Format.mantissaBits, Format.minExponent]
  omega

section

variable {s : Sign} {m : ℕ} {e : ℤ} (hm : 0 < m)

theorem unpack_pack_infinite (he : 971 < e) :
    (Float.Model.pack (.finite s m e hm)).unpack = .infinity s := by
  have hbiased : 2 ^ Format.binary64.exponentBits ≤
      (e + Format.binary64.exponentBias +
        Format.binary64.mantissaBitsWithoutImplicit).toNat + 1 := by
    have hbias : (Format.binary64.exponentBias : ℤ) = 1023 := rfl
    rw [hbias]
    norm_num
    omega
  simp only [Float.Model.unpack, Float.Model.pack, UnpackedFloat.pack, if_pos hbiased]
  cases s <;> rfl

theorem unpack_pack_finite (h : Fits m e) :
    (Float.Model.pack (.finite s m e hm)).unpack = .finite s m e hm := by
  obtain ⟨hlt, hge, hle, hfull⟩ := h
  have hbias : (Format.binary64.exponentBias : ℤ) = 1023 := rfl
  obtain ⟨E, hE⟩ : ∃ E : ℕ, (E : ℤ) = e + 1075 := ⟨(e + 1075).toNat, by omega⟩
  have hbiased : (e + Format.binary64.exponentBias +
      Format.binary64.mantissaBitsWithoutImplicit).toNat = E := by
    rw [hbias]
    norm_num
    omega
  have hfits : ¬ 2 ^ Format.binary64.exponentBits ≤ E + 1 := by
    norm_num
    omega
  have hlog : m.log2 + 1 = Format.binary64.mantissaBits ↔ exponentWeight ≤ m := by
    have hbits : Format.binary64.mantissaBits = 53 := rfl
    have hlog' : 52 ≤ m.log2 ↔ 2 ^ 52 ≤ m := Nat.le_log2 hm.ne'
    have hlog'' : m.log2 < 53 ↔ m < 2 ^ 53 := Nat.log2_lt hm.ne'
    rw [hbits]
    simp only [exponentWeight] at hlt ⊢
    omega
  simp only [Float.Model.unpack, Float.Model.pack, UnpackedFloat.pack, hbiased, if_neg hfits, hlog,
    UInt64.toBitVec_ofBitVec]
  by_cases hnormal : exponentWeight ≤ m
  · have hfield : (BitVec.ofNat 11 E).toNat = E := by
      rw [BitVec.toNat_ofNat, Nat.mod_eq_of_lt (by omega)]
    have hones : BitVec.ofNat 11 E ≠ -1#11 := by
      rw [Ne, ← BitVec.toNat_inj, hfield]
      change E ≠ 2047
      omega
    have hnone : BitVec.ofNat 11 E ≠ 0#11 := by
      rw [Ne, ← BitVec.toNat_inj, hfield]
      change E ≠ 0
      omega
    have hmantissa : (1#1 ++ BitVec.ofNat 52 m).toNat = m := by
      rw [toNat_append_one, BitVec.toNat_ofNat]
      simp only [exponentWeight] at *
      omega
    have hexponent : (E : ℤ) - ((1023 : ℤ) + 52) = e := by omega
    rw [if_pos hnormal]
    simp only [UnpackedFloat.unpack, unpackExponent_packComponents, unpackMantissa_packComponents,
      unpackSign_packComponents, Sign.ofBitVec_toBitVec, if_neg hones, if_neg hnone, hmantissa,
      hfield, hbias, Nat.cast_ofNat, hexponent]
  · have hbottom : e = -1074 := by omega
    have hfield : (BitVec.ofNat 52 m).toNat = m := by
      rw [BitVec.toNat_ofNat, Nat.mod_eq_of_lt (by simp only [exponentWeight] at hnormal; omega)]
    have hmantissa : BitVec.ofNat 52 m ≠ 0#52 := by
      rw [Ne, ← BitVec.toNat_inj, hfield]
      exact hm.ne'
    have hones : 0#11 ≠ -1#11 := by decide
    rw [if_neg hnormal]
    simp only [UnpackedFloat.unpack, unpackExponent_packComponents, unpackMantissa_packComponents,
      unpackSign_packComponents, Sign.ofBitVec_toBitVec, if_neg hones, if_true, dif_neg hmantissa,
      hfield, hbias, hbottom]
    rfl

end

/-- Packed into 64 bits, a result is a number, and it has the given place. -/
structure Lands (u : UnpackedFloat) (p : ℤ) : Prop where
  canonical : Canonical (Float.Model.pack u).unpack
  place_eq : place (Float.Model.pack u).unpack = p

theorem Lands.of_unpack_eq {u w : UnpackedFloat} {p : ℤ} (h : (Float.Model.pack u).unpack = w)
    (hw : Canonical w) (hplace : place w = p) : Lands u p := by
  rw [← h] at hw hplace
  exact ⟨hw, hplace⟩

theorem lands_zero (s : Sign) : Lands (.zero s) 0 :=
  .of_unpack_eq unpack_packedZero trivial rfl

theorem lands_finite (s : Sign) {m : ℕ} {e : ℤ} (hm : 0 < m) (hlt : m < 2 * exponentWeight)
    (hge : -1074 ≤ e) (hfull : -1074 < e → exponentWeight ≤ m) :
    Lands (.finite s m e hm) (s.apply (bitsAt e m)) := by
  by_cases hle : e ≤ 971
  · have hfits : Fits m e := ⟨hlt, hge, hle, hfull⟩
    have hbounds := hfits.place_bounds hm
    refine .of_unpack_eq (unpack_pack_finite hm hfits) hfits ?_
    rw [place, bitsAt]
    congr 1
    simp only [exponentWeight, topExponent] at *
    omega
  · have hfull := hfull (by omega)
    refine .of_unpack_eq (unpack_pack_infinite hm (not_le.mp hle)) trivial ?_
    rw [place, bitsAt]
    congr 1
    simp only [exponentWeight, topExponent] at *
    omega

section

variable {m : ℕ} {e t : ℤ} (hm : 0 < m) (ht : t = max ((m.log2 : ℤ) + e - 52) (-1074)) (he : e ≤ t)

include hm ht he

/-- A shift to the step of a number leaves the nearest multiple of the step, once it is rounded. -/
theorem rounds_shiftToExponent :
    Rounds (m * 2 ^ e) t (shiftToExponent m e .exact t).1.roundedMantissa := by
  obtain ⟨k, hk⟩ : ∃ k : ℕ, (k : ℤ) = t - e := ⟨(t - e).toNat, by omega⟩
  have hlow : (2 : ℚ) ^ m.log2 ≤ m := by exact_mod_cast Nat.log2_self_le hm.ne'
  have hhigh : (m : ℚ) < 2 ^ (m.log2 + 1) := by exact_mod_cast Nat.lt_log2_self
  have hscaled : (m * 2 ^ e : ℚ) / 2 ^ t = m / 2 ^ k := by
    have hpow : (2 : ℚ) ^ t = 2 ^ e * 2 ^ k := by
      rw [← zpow_natCast, ← zpow_add₀ two_ne_zero]
      congr 1
      omega
    rw [hpow]
    field_simp
  have hshows : Shows (shiftToExponent m e .exact t).1 ((m * 2 ^ e : ℚ) / 2 ^ t) := by
    have hshift : (t - e).toNat = k := by omega
    rw [hscaled, shiftToExponent, hshift]
    exact (shows_exact m).shiftRight k
  obtain ⟨hlow', hhigh', hodd⟩ := hshows.rounded
  refine ⟨by omega, ?_, ?_, hlow', hhigh', hodd⟩
  · calc
      (m * 2 ^ e : ℚ) < 2 ^ (m.log2 + 1) * 2 ^ e := by gcongr
      _ = 2 ^ ((m.log2 + 1 : ℤ) + e) := by
        rw [zpow_add₀ two_ne_zero, ← zpow_natCast]
        norm_cast
      _ ≤ 2 ^ (t + 53) := zpow_le_zpow_right₀ one_le_two (by omega)
  · intro hstep
    calc
      (2 : ℚ) ^ (t + 52) = 2 ^ ((m.log2 : ℤ) + e) := by
        congr 1
        omega
      _ = 2 ^ m.log2 * 2 ^ e := by rw [zpow_add₀ two_ne_zero, zpow_natCast]
      _ ≤ m * 2 ^ e := by gcongr

end

theorem shiftToTargetExponent_of_lt {m : ℕ} {e : ℤ} (hm : m < 2 * exponentWeight)
    (he : -1074 ≤ e) :
    shiftToTargetExponent .binary64 m e .exact = (⟨m, false, false⟩, e) := by
  have hlog : m.log2 ≤ 52 := by
    rcases Nat.eq_zero_or_pos m with rfl | hpos
    · decide
    · have hlt := (Nat.log2_lt hpos.ne').mpr (show m < 2 ^ 53 from hm)
      omega
  have hshift : (max ((m.log2 : ℤ) + e - 52) (-1074) - e).toNat = 0 := by omega
  rw [shiftToTargetExponent, targetExponent_eq, shiftToExponent, hshift]
  simp [ExtendedMantissa.ofMantissaAndAccuracy, HShiftRight.hShiftRight, Nat.repeat]

theorem shiftToTargetExponent_carry {e : ℤ} (he : -1074 ≤ e) :
    shiftToTargetExponent .binary64 (2 * exponentWeight) e .exact =
      (⟨exponentWeight, false, false⟩, e + 1) := by
  have hlog : (2 * exponentWeight).log2 = 53 := by decide +kernel
  have hshift : (max (((2 * exponentWeight).log2 : ℤ) + e - 52) (-1074) - e).toNat = 1 := by
    rw [hlog]
    omega
  rw [shiftToTargetExponent, targetExponent_eq, shiftToExponent, hshift]
  rfl

/-- Rounding a mantissa goes to the nearest double. -/
theorem lands_roundWithAccuracy (s : Sign) {m : ℕ} {e : ℤ} (hm : 0 < m)
    (he : e ≤ max ((m.log2 : ℤ) + e - 52) (-1074)) :
    Lands (roundWithAccuracy .binary64 s m e .exact) (s.apply (nearest (m * 2 ^ e))) := by
  obtain ⟨t, ht⟩ : ∃ t, t = max ((m.log2 : ℤ) + e - 52) (-1074) := ⟨_, rfl⟩
  have hrounds := rounds_shiftToExponent hm ht (ht ▸ he)
  have hexponent : (shiftToExponent m e .exact t).2 = t := by
    simp only [shiftToExponent]
    omega
  have hpos : (0 : ℚ) < m * 2 ^ e := by
    have hcast : (0 : ℚ) < m := by exact_mod_cast hm
    positivity
  have hfirst : shiftToTargetExponent .binary64 m e .exact = shiftToExponent m e .exact t := by
    rw [shiftToTargetExponent, targetExponent_eq, ht]
  rw [hrounds.nearest_eq hpos, roundWithAccuracy, hfirst]
  simp only [hexponent]
  generalize (shiftToExponent m e .exact t).1.roundedMantissa = n at hrounds
  have hbottom := hrounds.bottom
  rcases hrounds.le_twice.lt_or_eq with hlt | rfl
  · simp only [shiftToTargetExponent_of_lt hlt hbottom]
    by_cases hzero : n = 0
    · have hstep : t = -1074 := by
        by_contra hne
        have hfull := hrounds.full (by omega)
        rw [hzero, exponentWeight] at hfull
        omega
      have hnone : s.apply (bitsAt t n : ℤ) = 0 := by
        rw [hzero, hstep]
        cases s <;> rfl
      rw [dif_pos hzero, hnone]
      exact lands_zero s
    · rw [dif_neg hzero]
      exact lands_finite s _ hlt hbottom hrounds.full
  · -- The mantissa has become a power of two with one digit too many.
    have hweight : exponentWeight ≠ 0 := by decide
    have hcarry : bitsAt t (2 * exponentWeight) = bitsAt (t + 1) exponentWeight := by
      simp only [bitsAt, exponentWeight, topExponent]
      omega
    simp only [shiftToTargetExponent_carry hbottom, hcarry]
    rw [dif_neg hweight]
    exact lands_finite s _ (by decide) (by omega) fun _ => le_rfl

theorem log2_shiftLeft {m : ℕ} (hm : 0 < m) (k : ℕ) : (m <<< k).log2 = m.log2 + k := by
  induction k with
  | zero => rfl
  | succ k ih =>
      have hne : m <<< k ≠ 0 := by
        rw [Nat.shiftLeft_eq]
        positivity
      rw [Nat.shiftLeft_succ, Nat.log2_two_mul hne, ih, Nat.add_assoc]

theorem cast_shiftLeft (m k : ℕ) (e : ℤ) :
    ((m <<< k : ℕ) : ℚ) * 2 ^ (e - k) = m * 2 ^ e := by
  rw [Nat.shiftLeft_eq, zpow_sub₀ two_ne_zero, zpow_natCast]
  push_cast
  field_simp

theorem lands_round (s : Sign) {m : ℕ} (hm : 0 < m) (e : ℤ) :
    Lands (UnpackedFloat.round .binary64 s m e) (s.apply (nearest (m * 2 ^ e))) := by
  obtain ⟨k, hk⟩ : ∃ k : ℕ, k = (e - max ((m.log2 : ℤ) + e - 52) (-1074)).toNat := ⟨_, rfl⟩
  have hlog := log2_shiftLeft hm k
  have hvalue := cast_shiftLeft m k e
  have hpos : 0 < m <<< k := by
    rw [Nat.shiftLeft_eq]
    positivity
  have hlands := lands_roundWithAccuracy s hpos (e := e - k) (by rw [hlog]; omega)
  rw [hvalue] at hlands
  rw [UnpackedFloat.round, targetExponent_eq, decreaseExponent, ← hk]
  exact hlands

theorem lands_normalize (n : ℤ) (e : ℤ) :
    Lands (normalize .binary64 n e .positive) (nearestPlace (n * 2 ^ e)) := by
  rw [UnpackedFloat.normalize]
  rcases lt_trichotomy n 0 with hlt | rfl | hgt
  · have hpos : 0 < (-n).toNat := by omega
    have hcast : ((-n).toNat : ℚ) = -n := by rw [cast_toNat (by omega), Int.cast_neg]
    have hneg : (n : ℚ) * 2 ^ e < 0 := by
      have hn : (n : ℚ) < 0 := by exact_mod_cast hlt
      exact mul_neg_of_neg_of_pos hn (by positivity)
    have hlands := lands_round .negative hpos e
    rw [hcast, neg_mul] at hlands
    rw [compare_lt_iff_lt.mpr hlt, nearestPlace, if_pos hneg]
    exact hlands
  · rw [compare_eq_iff_eq.mpr rfl, Int.cast_zero, zero_mul]
    exact lands_zero .positive
  · have hpos : 0 < n.toNat := by omega
    have hnonneg : ¬ (n : ℚ) * 2 ^ e < 0 := by
      have hn : (0 : ℚ) < n := by exact_mod_cast hgt
      have hproduct : (0 : ℚ) < n * 2 ^ e := by positivity
      exact hproduct.not_gt
    have hlands := lands_round .positive hpos e
    rw [cast_toNat hgt.le] at hlands
    rw [compare_gt_iff_gt.mpr hgt, nearestPlace, if_neg hnonneg]
    exact hlands

theorem lands_self {u : UnpackedFloat} (hu : Canonical u) (hfinite : u.isFinite = true) :
    Lands u (nearestPlace (unpackedValue u)) := by
  have hunpack : (Float.Model.pack u).unpack = u := by
    cases u with
    | notANumber => cases hu
    | infinity s => cases hfinite
    | zero s => exact unpack_packedZero
    | finite s m e hm => exact unpack_pack_finite hm hu
  exact .of_unpack_eq hunpack hu (place_eq_nearestPlace hu hfinite)

/-- A mantissa keeps its value when its exponent goes down. -/
theorem cast_apply_decreaseExponent (s : Sign) (m : ℕ) {e t : ℤ} (h : t ≤ e) :
    ((s.apply (decreaseExponent m e t).1 : ℤ) : ℚ) * 2 ^ t = s.apply m * 2 ^ e := by
  have hcast := cast_shiftLeft m (e - t).toNat e
  have hexponent : e - ((e - t).toNat : ℤ) = t := by omega
  rw [hexponent] at hcast
  cases s with
  | negative =>
      simp only [decreaseExponent, Sign.apply, Int.cast_neg, Int.cast_natCast, neg_mul, hcast]
  | positive => simpa only [decreaseExponent, Sign.apply, Int.cast_natCast] using hcast

theorem lands_add {u w : UnpackedFloat} (hu : Canonical u) (hw : Canonical w)
    (hu' : u.isFinite = true) (hw' : w.isFinite = true) :
    Lands (UnpackedFloat.add .binary64 u w) (nearestPlace (unpackedValue u + unpackedValue w)) := by
  cases u with
  | notANumber => cases hu
  | infinity s => cases hu'
  | zero s =>
      cases w with
      | notANumber => cases hw
      | infinity s' => cases hw'
      | zero s' =>
          have hvalue : nearestPlace (unpackedValue (.zero s) + unpackedValue (.zero s')) = 0 := by
            simp [unpackedValue, nearestPlace, nearest_zero]
          rw [hvalue, UnpackedFloat.add]
          split <;> exact lands_zero _
      | finite s' m e hm =>
          have hvalue : unpackedValue (.zero s) = 0 := rfl
          rw [hvalue, zero_add]
          exact lands_self hw hw'
  | finite s m e hm =>
      cases w with
      | notANumber => cases hw
      | infinity s' => cases hw'
      | zero s' =>
          have hvalue : unpackedValue (.zero s') = 0 := rfl
          rw [hvalue, add_zero]
          exact lands_self hu hu'
      | finite s' m' e' hm' =>
          have hlands := lands_normalize (s.apply (decreaseExponent m e (min e e')).1 +
            s'.apply (decreaseExponent m' e' (min e e')).1) (min e e')
          rw [Int.cast_add, add_mul, cast_apply_decreaseExponent s m (min_le_left e e'),
            cast_apply_decreaseExponent s' m' (min_le_right e e')] at hlands
          exact hlands

theorem apply_neg (s : Sign) (n : ℤ) : (-s).apply n = -s.apply n := by
  cases s
  · exact (neg_neg n).symm
  · rfl

/-- A difference is a sum with the sign turned around. -/
theorem sub_unpacked (u w : UnpackedFloat) :
    UnpackedFloat.sub .binary64 u w = UnpackedFloat.add .binary64 u w.neg := by
  cases u with
  | finite s m e hm =>
      cases w with
      | finite s' m' e' hm' =>
          simp only [UnpackedFloat.sub, UnpackedFloat.add, UnpackedFloat.neg, apply_neg,
            Int.sub_eq_add_neg]
      | _ => rfl
  | _ => cases w <;> rfl

theorem canonical_neg {u : UnpackedFloat} (hu : Canonical u) : Canonical u.neg := by
  cases u with
  | notANumber => cases hu
  | finite s m e hm => exact hu
  | _ => trivial

theorem isFinite_neg (u : UnpackedFloat) : u.neg.isFinite = u.isFinite := by
  cases u <;> rfl

theorem unpackedValue_neg (u : UnpackedFloat) : unpackedValue u.neg = -unpackedValue u := by
  cases u with
  | finite s m e hm => rw [UnpackedFloat.neg, unpackedValue, unpackedValue, apply_neg, Int.cast_neg,
      neg_mul]
  | _ => exact neg_zero.symm

theorem lands_sub {u w : UnpackedFloat} (hu : Canonical u) (hw : Canonical w)
    (hu' : u.isFinite = true) (hw' : w.isFinite = true) :
    Lands (UnpackedFloat.sub .binary64 u w) (nearestPlace (unpackedValue u - unpackedValue w)) := by
  rw [sub_unpacked, sub_eq_add_neg, ← unpackedValue_neg]
  exact lands_add hu (canonical_neg hw) hu' ((isFinite_neg w).trans hw')

section

variable {x y : Float} (hx : x.isFinite = true) (hy : y.isFinite = true)

include hx hy

/-- The sum of finite doubles is the double nearest to the sum of their values. -/
theorem place_add : Canonical (x + y).toModel.unpack ∧
    place (x + y).toModel.unpack = nearestPlace (value x + value y) := by
  have hlands := lands_add (canonical_of_isFinite hx) (canonical_of_isFinite hy) hx hy
  rw [unpackedValue_unpack hx, unpackedValue_unpack hy] at hlands
  exact ⟨hlands.canonical, hlands.place_eq⟩

theorem place_sub : Canonical (x - y).toModel.unpack ∧
    place (x - y).toModel.unpack = nearestPlace (value x - value y) := by
  have hlands := lands_sub (canonical_of_isFinite hx) (canonical_of_isFinite hy) hx hy
  rw [unpackedValue_unpack hx, unpackedValue_unpack hy] at hlands
  exact ⟨hlands.canonical, hlands.place_eq⟩

theorem isFinite_add_iff : (x + y).isFinite = true ↔ |value x + value y| < overflow := by
  obtain ⟨hcanonical, hplace⟩ := place_add hx hy
  have hunpack : (x + y).isFinite = (x + y).toModel.unpack.isFinite := rfl
  rw [hunpack, isFinite_iff_place hcanonical, hplace, abs_nearestPlace_lt_iff]

theorem isFinite_sub_iff : (x - y).isFinite = true ↔ |value x - value y| < overflow := by
  obtain ⟨hcanonical, hplace⟩ := place_sub hx hy
  have hunpack : (x - y).isFinite = (x - y).toModel.unpack.isFinite := rfl
  rw [hunpack, isFinite_iff_place hcanonical, hplace, abs_nearestPlace_lt_iff]

end

end PlotPane.Double
