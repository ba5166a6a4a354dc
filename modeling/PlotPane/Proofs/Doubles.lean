import Mathlib
import PlotPane.Proofs.NearestOrder

/-!
# Doubles in their order

What the 64 bits of a double say, which is how arithmetic and comparison take it: a sign with a
mantissa and an exponent, or zero, or infinity, or no number. All but the last have a place in one
order, and to compare two doubles is to compare their places. The place of a finite double is that
of the double nearest to its value.
-/

namespace PlotPane.Double

open Float.Model Float.Model.UnpackedFloat

def sign (x : Float) : Sign :=
  if isNegative x then .negative else .positive

theorem toNat_unpackExponent (x : Float) :
    (@unpackExponent .binary64 x.toBits.toBitVec).toNat = biased x := by
  rw [unpackExponent_def, BitVec.extractLsb'_toNat, Nat.shiftRight_eq_div_pow]
  rfl

theorem toNat_unpackMantissa (x : Float) :
    (@unpackMantissa .binary64 x.toBits.toBitVec).toNat = fraction x := by
  rw [unpackMantissa_def, BitVec.extractLsb'_toNat, Nat.shiftRight_eq_div_pow]
  simp [fraction, exponentWeight]

theorem ofBitVec_unpackSign (x : Float) :
    Sign.ofBitVec (@unpackSign .binary64 x.toBits.toBitVec) = sign x := by
  have hbit : (@unpackSign .binary64 x.toBits.toBitVec).toNat = x.toBits.toNat / signWeight := by
    have hlt : x.toBits.toNat < UInt64.size := x.toBits.toNat_lt
    rw [UInt64.size] at hlt
    rw [unpackSign_def, BitVec.extractLsb'_toNat, Nat.shiftRight_eq_div_pow]
    simp [signWeight]
    omega
  have hzero : @unpackSign .binary64 x.toBits.toBitVec = 0#1 ↔ isNegative x = false := by
    rw [← BitVec.toNat_inj, hbit, isNegative, decide_eq_false_iff_not]
    simp [signWeight]
  rw [Sign.ofBitVec, sign]
  by_cases hneg : isNegative x = true
  · simp [hzero, hneg]
  · simp [hzero, hneg]

theorem toNat_append_one (m : BitVec 52) : (1#1 ++ m).toNat = m.toNat + exponentWeight := by
  rw [BitVec.toNat_append, ← Nat.shiftLeft_add_eq_or_of_lt m.isLt]
  simp [Nat.shiftLeft_eq, exponentWeight]
  omega

theorem unpack_eq (x : Float) : x.toModel.unpack =
    if biased x = topExponent then
      if fraction x = 0 then .infinity (sign x) else .notANumber
    else if h : (magnitude x).mantissa = 0 then .zero (sign x)
    else .finite (sign x) (magnitude x).mantissa (magnitude x).exponent (Nat.pos_of_ne_zero h) := by
  have hones : @unpackExponent .binary64 x.toBits.toBitVec = -1#11 ↔ biased x = topExponent := by
    rw [← toNat_unpackExponent, ← BitVec.toNat_inj]
    rfl
  have hnone : @unpackExponent .binary64 x.toBits.toBitVec = 0#11 ↔ biased x = 0 := by
    rw [← toNat_unpackExponent, ← BitVec.toNat_inj]
    rfl
  have hzero : @unpackMantissa .binary64 x.toBits.toBitVec = 0#52 ↔ fraction x = 0 := by
    rw [← toNat_unpackMantissa, ← BitVec.toNat_inj]
    rfl
  change UnpackedFloat.unpack .binary64 x.toBits.toBitVec = _
  simp only [UnpackedFloat.unpack, hones, hnone, hzero, ofBitVec_unpackSign, toNat_unpackExponent,
    toNat_unpackMantissa, toNat_append_one]
  have hbias : (Format.binary64.exponentBias : ℤ) = 1023 := rfl
  split
  · rfl
  · split
    · next hexp =>
        have hmantissa : (magnitude x).mantissa = fraction x := if_pos hexp
        have hexponent : (magnitude x).exponent = (biased x : ℤ) - (1023 + 52) + 1 := by
          simp [magnitude, hexp]
        simp only [hmantissa, hexponent, hbias, Nat.cast_ofNat]
    · next hexp =>
        have hmantissa : (magnitude x).mantissa = fraction x + exponentWeight := if_neg hexp
        have hexponent : (magnitude x).exponent = (biased x : ℤ) - (1023 + 52) := by
          simp only [magnitude]
          omega
        have hne : fraction x + exponentWeight ≠ 0 := by simp [exponentWeight]
        simp only [hmantissa, hexponent, hbias, Nat.cast_ofNat, dif_neg hne]

/-- The mantissas and exponents of the finite doubles. -/
structure Fits (m : ℕ) (e : ℤ) : Prop where
  lt : m < 2 * exponentWeight
  ge : -1074 ≤ e
  le : e ≤ 971
  full : -1074 < e → exponentWeight ≤ m

theorem fits_magnitude {x : Float} (hx : biased x ≠ topExponent) :
    Fits (magnitude x).mantissa (magnitude x).exponent := by
  have hbiased : biased x < 2048 := Nat.mod_lt _ (by decide)
  have hfraction : fraction x < exponentWeight := Nat.mod_lt _ (by decide)
  have hmantissa : (magnitude x).mantissa =
    if biased x = 0 then fraction x else fraction x + exponentWeight := rfl
  have hexponent : (magnitude x).exponent = (max (biased x) 1 : ℕ) - 1075 := rfl
  rw [hmantissa, hexponent]
  rw [topExponent] at hx
  by_cases hzero : biased x = 0
  · rw [if_pos hzero, hzero]
    exact ⟨by omega, by omega, by omega, fun h => by omega⟩
  · rw [if_neg hzero]
    exact ⟨by omega, by omega, by omega, fun _ => by omega⟩

/-- An unpacked double that is a number, as it comes from 64 bits. -/
def Canonical : UnpackedFloat → Prop
  | .notANumber => False
  | .finite _ m e _ => Fits m e
  | .infinity _ | .zero _ => True

theorem canonical_of_isFinite {x : Float} (hx : x.isFinite = true) :
    Canonical x.toModel.unpack := by
  have htop := biased_ne_of_isFinite hx
  rw [unpack_eq, if_neg htop]
  split
  · trivial
  · exact fits_magnitude htop

/-- The place of an unpacked double in the order of them all. -/
def place : UnpackedFloat → ℤ
  | .infinity s => s.apply (topExponent * exponentWeight)
  | .notANumber => 0
  | .zero _ => 0
  | .finite s m e _ => s.apply ((e + 1074) * exponentWeight + m)

section

variable {m m' : ℕ} {e e' : ℤ}

theorem Fits.place_bounds (h : Fits m e) (hm : 0 < m) :
    0 < (e + 1074) * (exponentWeight : ℤ) + m ∧
      (e + 1074) * (exponentWeight : ℤ) + m < topExponent * exponentWeight := by
  obtain ⟨hlt, hge, hle, hfull⟩ := h
  simp only [exponentWeight, topExponent] at *
  omega

/-- The exponents decide first and then the mantissas, and so do the places. -/
theorem Fits.compare_eq (h : Fits m e) (h' : Fits m' e') :
    (compare e e').then (compare m m') =
      compare ((e + 1074) * (exponentWeight : ℤ) + m)
        ((e' + 1074) * (exponentWeight : ℤ) + m') := by
  obtain ⟨hlt, hge, -, hfull⟩ := h
  obtain ⟨hlt', hge', -, hfull'⟩ := h'
  simp only [exponentWeight] at *
  rcases lt_trichotomy e e' with hless | rfl | hmore
  · rw [compare_lt_iff_lt.mpr hless]
    exact (compare_lt_iff_lt.mpr (by omega)).symm
  · rw [compare_eq_iff_eq.mpr rfl]
    rcases lt_trichotomy m m' with hless | rfl | hmore
    · exact (compare_lt_iff_lt.mpr hless).trans (compare_lt_iff_lt.mpr (by omega)).symm
    · exact (compare_eq_iff_eq.mpr rfl).trans (compare_eq_iff_eq.mpr rfl).symm
    · exact (compare_gt_iff_gt.mpr hmore).trans (compare_gt_iff_gt.mpr (by omega)).symm
  · rw [compare_gt_iff_gt.mpr hmore]
    exact (compare_gt_iff_gt.mpr (by omega)).symm

end

theorem compare_neg (a b : ℤ) : compare (-a) (-b) = (compare a b).swap := by
  rcases lt_trichotomy a b with hlt | rfl | hgt
  · rw [compare_lt_iff_lt.mpr hlt, compare_gt_iff_gt.mpr (neg_lt_neg hlt)]
    rfl
  · rw [compare_eq_iff_eq.mpr rfl, compare_eq_iff_eq.mpr rfl]
    rfl
  · rw [compare_gt_iff_gt.mpr hgt, compare_lt_iff_lt.mpr (neg_lt_neg hgt)]
    rfl

theorem compare_place {u w : UnpackedFloat} (hu : Canonical u) (hw : Canonical w) :
    u.compare w = some (compare (place u) (place w)) := by
  have hless {a b : ℤ} (h : a < b) : some Ordering.lt = some (compare a b) :=
    congrArg some (compare_lt_iff_lt.mpr h).symm
  have hmore {a b : ℤ} (h : b < a) : some Ordering.gt = some (compare a b) :=
    congrArg some (compare_gt_iff_gt.mpr h).symm
  cases u with
  | notANumber => cases hu
  | infinity s =>
      cases w with
      | notANumber => cases hw
      | infinity s' => cases s <;> cases s' <;> rfl
      | zero s' => cases s <;> rfl
      | finite s' m e hm =>
          have hbounds := Fits.place_bounds hw hm
          cases s <;> cases s' <;> simp only [UnpackedFloat.compare, place, Sign.apply] <;>
            first | exact hless (by omega) | exact hmore (by omega)
  | zero s =>
      cases w with
      | notANumber => cases hw
      | infinity s' => cases s' <;> rfl
      | zero s' => rfl
      | finite s' m e hm =>
          have hbounds := Fits.place_bounds hw hm
          cases s' <;> simp only [UnpackedFloat.compare, place, Sign.apply] <;>
            first | exact hless (by omega) | exact hmore (by omega)
  | finite s m e hm =>
      have hbounds := Fits.place_bounds hu hm
      cases w with
      | notANumber => cases hw
      | infinity s' =>
          cases s <;> cases s' <;> simp only [UnpackedFloat.compare, place, Sign.apply] <;>
            first | exact hless (by omega) | exact hmore (by omega)
      | zero s' =>
          cases s <;> simp only [UnpackedFloat.compare, place, Sign.apply] <;>
            first | exact hless (by omega) | exact hmore (by omega)
      | finite s' m' e' hm' =>
          have hbounds' := Fits.place_bounds hw hm'
          cases s <;> cases s' <;> simp only [UnpackedFloat.compare, place, Sign.apply]
          · rw [compare_neg, Fits.compare_eq hu hw]
          · exact hless (by omega)
          · exact hmore (by omega)
          · rw [Fits.compare_eq hu hw]

theorem isFinite_iff_place {u : UnpackedFloat} (hu : Canonical u) :
    u.isFinite = true ↔ |place u| < topExponent * exponentWeight := by
  cases u with
  | notANumber => cases hu
  | infinity s => cases s <;> decide
  | zero s => cases s <;> decide
  | finite s m e hm =>
      have hbounds := Fits.place_bounds hu hm
      refine iff_of_true rfl ?_
      rw [abs_lt]
      cases s <;> simp only [place, Sign.apply] <;> omega

section

variable {x y : Float} (hx : Canonical x.toModel.unpack) (hy : Canonical y.toModel.unpack)

include hx hy

theorem lt_iff_place_lt :
    x < y ↔ place x.toModel.unpack < place y.toModel.unpack := by
  have hunpack : x < y ↔ x.toModel.unpack.lt y.toModel.unpack = true := decide_eq_true_iff
  rw [hunpack, UnpackedFloat.lt, compare_place hx hy, beq_iff_eq, Option.some.injEq,
    compare_lt_iff_lt]

theorem le_iff_place_le :
    x ≤ y ↔ place x.toModel.unpack ≤ place y.toModel.unpack := by
  have hunpack : x ≤ y ↔ x.toModel.unpack.le y.toModel.unpack = true := decide_eq_true_iff
  rw [hunpack, UnpackedFloat.le, compare_place hx hy, Option.any_some, Std.isLE_compare]

end

/-- The value of an unpacked double, and zero for what has none. -/
def unpackedValue : UnpackedFloat → ℚ
  | .finite s m e _ => s.apply m * 2 ^ e
  | .infinity _ | .notANumber | .zero _ => 0

/-- The value of a finite double. -/
def value (x : Float) : ℚ :=
  (if isNegative x then -1 else 1) * ((magnitude x).mantissa * 2 ^ (magnitude x).exponent)

theorem unpackedValue_unpack {x : Float} (hx : x.isFinite = true) :
    unpackedValue x.toModel.unpack = value x := by
  have hsign (m : ℕ) :
      (((sign x).apply m : ℤ) : ℚ) = (if isNegative x then -1 else 1) * (m : ℚ) := by
    rw [sign]
    split <;> simp [Sign.apply]
  rw [unpack_eq, if_neg (biased_ne_of_isFinite hx), value]
  split
  · next hzero => simp [unpackedValue, hzero]
  · rw [unpackedValue, hsign, mul_assoc]

theorem nearestPlace_apply (s : Sign) {r : ℚ} (hr : 0 ≤ r) :
    nearestPlace (((s.apply 1 : ℤ) : ℚ) * r) = s.apply (nearest r) := by
  have hpositive := nearestPlace_of_nonneg hr
  cases s with
  | negative =>
      have hneg : (((Sign.negative).apply 1 : ℤ) : ℚ) * r = -r := by simp [Sign.apply]
      rw [hneg, nearestPlace_neg, hpositive]
      rfl
  | positive =>
      have hsame : (((Sign.positive).apply 1 : ℤ) : ℚ) * r = r := by simp [Sign.apply]
      rw [hsame, hpositive]
      rfl

theorem Fits.rounds {m : ℕ} {e : ℤ} (h : Fits m e) : Rounds (m * 2 ^ e) e m := by
  have hpos : (0 : ℚ) < 2 ^ e := by positivity
  have hself : (m * 2 ^ e : ℚ) / 2 ^ e = m := mul_div_cancel_right₀ _ hpos.ne'
  refine ⟨h.ge, ?_, ?_, ?_, ?_, ?_⟩
  · have hlt : (m : ℚ) < 2 ^ (53 : ℤ) := by
      have hcast : (m : ℚ) < 2 * exponentWeight := by exact_mod_cast h.lt
      norm_num [exponentWeight] at hcast ⊢
      exact hcast
    rw [add_comm, zpow_add₀ two_ne_zero]
    gcongr
  · intro hlow
    have hle : (exponentWeight : ℚ) ≤ m := by exact_mod_cast h.full hlow
    rw [add_comm, zpow_add₀ two_ne_zero, ← cast_exponentWeight]
    gcongr
  · rw [hself]
    linarith
  · rw [hself]
    linarith
  · intro _
    rw [hself]
    exact ⟨by linarith, by linarith⟩

/-- The place of a finite double is that of its value. -/
theorem place_eq_nearestPlace {u : UnpackedFloat} (hu : Canonical u) (hfinite : u.isFinite = true) :
    place u = nearestPlace (unpackedValue u) := by
  cases u with
  | notANumber => cases hu
  | infinity s => cases hfinite
  | zero s => rfl
  | finite s m e hm =>
      have hfits : Fits m e := hu
      have hpos : (0 : ℚ) < m * 2 ^ e := by
        have hcast : (0 : ℚ) < m := by exact_mod_cast hm
        positivity
      have hvalue : unpackedValue (.finite s m e hm) = ((s.apply 1 : ℤ) : ℚ) * (m * 2 ^ e) := by
        cases s <;> simp [unpackedValue, Sign.apply]
      have hbounds := hfits.place_bounds hm
      have hge := hfits.ge
      rw [hvalue, nearestPlace_apply s hpos.le, hfits.rounds.nearest_eq hpos, bitsAt, place]
      congr 1
      push_cast
      simp only [exponentWeight, topExponent] at *
      omega

end PlotPane.Double
