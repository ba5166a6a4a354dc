import PlotPane.Proofs.ExactViews
import PlotPane.Proofs.FixedTexts
import PlotPane.Proofs.Spans

/-!
# Labels

A label shows the two parts of a plane point with as many decimals as the scale asks for. In exact
numbers a unit of the last decimal is at most a thousandth of the scale, which is less than a pixel
on a screen of under two thousand lines, so that neighbouring pixels have different labels. A part
keeps its sign where it is rounded to zero: only a zero itself never has one.
-/

namespace PlotPane

namespace View

/-- The real part in the text of a label: what stands before the first space. -/
def labelRe (text : String) : List Char :=
  text.toList.takeWhile (· != ' ')

/-- The imaginary part in the text of a label: what stands behind the plus sign and its spaces,
without the letter at the end. -/
def labelIm (text : String) : List Char :=
  ((text.toList.dropWhile (· != ' ')).drop 3).dropLast

section

variable {α : Type} [Scalar α] (scale : α) (z : PlanePoint α)

theorem toList_label :
    (label scale z).toList =
      (Scalar.fixedText (labelDecimals scale) z.re).toList ++
        ' ' :: '+' :: ' ' :: ((Scalar.fixedText (labelDecimals scale) z.im).toList ++ ['i']) := by
  have hplus : " + ".toList = [' ', '+', ' '] := rfl
  have hletter : "i".toList = ['i'] := rfl
  simp [label, String.toList_append, hplus, hletter]

theorem bne_space_of_mem_fixedText (places : ℕ) (x : α) :
    ∀ c ∈ (Scalar.fixedText places x).toList, (c != ' ') = true := by
  intro c hc
  rw [bne_iff_ne]
  rintro rfl
  exact (Scalar.quantity (x + 0.0)).space_not_mem_fixed places hc

theorem labelRe_label :
    labelRe (label scale z) = (Scalar.fixedText (labelDecimals scale) z.re).toList := by
  have hkeep := bne_space_of_mem_fixedText (labelDecimals scale) z.re
  rw [labelRe, toList_label, List.takeWhile_append_of_pos hkeep,
    List.takeWhile_cons_of_neg (by simp), List.append_nil]

theorem labelIm_label :
    labelIm (label scale z) = (Scalar.fixedText (labelDecimals scale) z.im).toList := by
  have hkeep := bne_space_of_mem_fixedText (labelDecimals scale) z.re
  rw [labelIm, toList_label, List.dropWhile_append_of_pos hkeep,
    List.dropWhile_cons_of_neg (by simp)]
  exact List.dropLast_concat

end

end View

/-! Exact labels -/

namespace Exact

section

variable {x : ℚ} {e : ℤ} (hlow : 10 ^ e ≤ x) (hhigh : x < 10 ^ (e + 1))

include hlow hhigh

/-- So many decimals reach the leading digit of a number, in whole numbers as they are compared. -/
theorem den_le_mul_pow_iff (d : ℕ) : x.den ≤ x.num.natAbs * Nat.pow 10 d ↔ -e ≤ d := by
  have hpos : 0 < x := lt_of_lt_of_le (by positivity) hlow
  have hden : (0 : ℚ) < x.den := by exact_mod_cast x.den_pos
  have hcast : ((x.num.natAbs : ℕ) : ℚ) = x * x.den := by
    rw [Rat.mul_den_eq_num, ← Int.cast_natCast, Int.natAbs_of_nonneg (Rat.num_nonneg.mpr hpos.le)]
  have hmul : x.den ≤ x.num.natAbs * Nat.pow 10 d ↔ 1 ≤ x * 10 ^ d := by
    rw [← Nat.cast_le (α := ℚ)]
    change _ ≤ (((x.num.natAbs * 10 ^ d : ℕ)) : ℚ) ↔ _
    push_cast
    rw [hcast, mul_right_comm, le_mul_iff_one_le_left hden]
  have hpow : 1 ≤ x * 10 ^ d ↔ (10 : ℚ) ^ (-(d : ℤ)) ≤ x := by
    rw [zpow_neg, zpow_natCast, inv_le_iff_one_le_mul₀ (by positivity)]
  rw [hmul, hpow]
  constructor
  · intro hle
    have hlt := (zpow_lt_zpow_iff_right₀ (by norm_num : (1 : ℚ) < 10)).mp (hle.trans_lt hhigh)
    omega
  · intro hle
    exact (zpow_le_zpow_right₀ (by norm_num) (by omega)).trans hlow

/-- The decimals that reach the leading digit, by the exponent of that digit. -/
theorem decimals_eq (most : ℕ) : (decimals most x : ℤ) = max 0 (min (most : ℤ) (-e)) := by
  have hnum : 0 < x.num := Rat.num_pos.mpr (lt_of_lt_of_le (by positivity) hlow)
  rw [decimals, if_neg (by omega)]
  simp only [den_le_mul_pow_iff hlow hhigh]
  by_cases hmost : (-e).toNat < most
  · have hfind : (List.range most).find? (fun d : ℕ => decide (-e ≤ d)) = some (-e).toNat := by
      rw [List.find?_range_eq_some]
      refine ⟨decide_eq_true (by omega), List.mem_range.mpr hmost, ?_⟩
      intro d hd
      rw [Bool.not_eq_true', decide_eq_false_iff_not]
      omega
    rw [hfind, Option.getD_some]
    omega
  · have hfind : (List.range most).find? (fun d : ℕ => decide (-e ≤ d)) = none := by
      rw [List.find?_range_eq_none]
      intro d hd
      rw [Bool.not_eq_true', decide_eq_false_iff_not]
      omega
    rw [hfind, Option.getD_none]
    omega

end

variable (exp exp2 : ℚ → ℚ)

theorem labelDecimals_eq {scale : ℚ} {e : ℤ} (hlow : 10 ^ e ≤ scale / 1000)
    (hhigh : scale / 1000 < 10 ^ (e + 1)) :
    (@View.labelDecimals ℚ (scalar exp exp2) scale : ℤ) = max 0 (min 17 (-e)) := by
  have hmil : scale * 0.001 = scale / 1000 := by norm_num [div_eq_mul_inv]
  rw [← hmil] at hlow hhigh
  exact decimals_eq hlow hhigh View.maxLabelDecimals

/-- A unit of the last decimal is at most a thousandth of the scale. -/
theorem one_le_mul_pow_labelDecimals {scale : ℚ} (hscale : 10 ^ (-14 : ℤ) ≤ scale) :
    1 ≤ scale / 1000 * 10 ^ @View.labelDecimals ℚ (scalar exp exp2) scale := by
  have hpos : 0 < scale / 1000 := div_pos (lt_of_lt_of_le (by positivity) hscale) (by norm_num)
  obtain ⟨e, hlow, hhigh⟩ := exists_mem_Ico_zpow hpos (by norm_num : (1 : ℚ) < 10)
  have hdecimals := labelDecimals_eq exp exp2 hlow hhigh
  have hleast : (10 : ℚ) ^ (-17 : ℤ) ≤ scale / 1000 := by
    rw [le_div_iff₀ (by norm_num)]
    exact le_trans (by norm_num) hscale
  have he := (zpow_lt_zpow_iff_right₀ (by norm_num : (1 : ℚ) < 10)).mp (hleast.trans_lt hhigh)
  generalize @View.labelDecimals ℚ (scalar exp exp2) scale = d at *
  calc
    (1 : ℚ) ≤ 10 ^ (e + d) := one_le_zpow₀ (by norm_num) (by omega)
    _ = 10 ^ e * 10 ^ d := by rw [zpow_add₀ (by norm_num), zpow_natCast]
    _ ≤ scale / 1000 * 10 ^ d := by gcongr

/-- The quantity of a rational number is the number. -/
theorem value_quantity (x : ℚ) :
    (Quantity.finite (decide (x.num < 0)) x.num.natAbs x.den).value = x := by
  have habs : ((x.num.natAbs : ℕ) : ℚ) / x.den = |x| := by
    rw [Nat.cast_natAbs, Int.cast_abs]
    nth_rewrite 3 [← Rat.num_div_den x]
    rw [abs_div, Nat.abs_cast]
  rw [Quantity.value, habs]
  by_cases hneg : x.num < 0
  · rw [if_pos (decide_eq_true hneg), abs_of_neg (Rat.num_neg.mp hneg), neg_one_mul, neg_neg]
  · rw [if_neg (by simpa using hneg), abs_of_nonneg (Rat.num_nonneg.mp (not_lt.mp hneg)), one_mul]

theorem fixedText_eq (places : ℕ) (x : ℚ) :
    @Scalar.fixedText ℚ (scalar exp exp2) places x =
      (Quantity.finite (decide (x.num < 0)) x.num.natAbs x.den).fixed places := by
  have hzero : x + 0.0 = x := by norm_num
  exact congrArg (fun y : ℚ => (Quantity.finite (decide (y.num < 0)) y.num.natAbs y.den).fixed
    places) hzero

theorem fixedText_ne {places : ℕ} {x y : ℚ} (h : 1 < |x - y| * 10 ^ places) :
    @Scalar.fixedText ℚ (scalar exp exp2) places x ≠
      @Scalar.fixedText ℚ (scalar exp exp2) places y := by
  rw [fixedText_eq, fixedText_eq]
  apply Quantity.fixed_ne_of_lt x.den_pos y.den_pos
  rw [value_quantity, value_quantity]
  exact h

/-- Where the screen has less than two thousand lines, a pixel is more than a unit of the last
decimal. -/
theorem one_lt_pixel_mul_pow {v : View ℚ} {size : ScreenSize ℚ}
    (hscale : 10 ^ (-14 : ℤ) ≤ v.scale) (hheight : 0 < size.height)
    (hlow : size.height < 2000) :
    1 < pixel v size * 10 ^ @View.labelDecimals ℚ (scalar exp exp2) v.scale := by
  have hpos : 0 < v.scale := lt_of_lt_of_le (by positivity) hscale
  have hpixel : v.scale / 1000 < pixel v size := by
    rw [pixel, div_lt_div_iff₀ (by norm_num) hheight]
    nlinarith
  have hpow : (0 : ℚ) < 10 ^ @View.labelDecimals ℚ (scalar exp exp2) v.scale := by positivity
  calc
    1 ≤ v.scale / 1000 * 10 ^ @View.labelDecimals ℚ (scalar exp exp2) v.scale :=
      one_le_mul_pow_labelDecimals exp exp2 hscale
    _ < pixel v size * 10 ^ @View.labelDecimals ℚ (scalar exp exp2) v.scale := by gcongr

/-- Numbers that are as far apart as a pixel have different texts. -/
theorem fixedText_ne_of_pixel {v : View ℚ} {size : ScreenSize ℚ}
    (hscale : 10 ^ (-14 : ℤ) ≤ v.scale) (hheight : 0 < size.height) (hlow : size.height < 2000)
    {x y t : ℚ} (hxy : x - y = pixel v size * t) (ht : 1 ≤ |t|) :
    @Scalar.fixedText ℚ (scalar exp exp2) (@View.labelDecimals ℚ (scalar exp exp2) v.scale) x ≠
      @Scalar.fixedText ℚ (scalar exp exp2) (@View.labelDecimals ℚ (scalar exp exp2) v.scale)
        y := by
  have hunit := one_lt_pixel_mul_pow exp exp2 hscale hheight hlow
  have hpixel : 0 < pixel v size :=
    pixel_pos (lt_of_lt_of_le (by positivity) hscale) hheight
  apply fixedText_ne
  rw [hxy, abs_mul, abs_of_pos hpixel, mul_right_comm]
  exact one_lt_mul_of_lt_of_le hunit ht

/-- Neighbouring pixels have different labels. In exact numbers, for a scale of at least
`10 ^ (-14)` and a screen of less than two thousand lines: a label has the decimals that reach the
leading digit of a thousandth of the scale, none where that is a digit of the whole part and at most
seventeen; the labels of points that are a pixel or more apart from left to right differ in the real
part, and those of points that are a pixel or more apart from top to bottom in the imaginary
part. -/
theorem labels_tell_pixels_apart (exp exp2 : ℚ → ℚ) (v : View ℚ) (size : ScreenSize ℚ)
    (hscale : 10 ^ (-14 : ℤ) ≤ v.scale) (hwidth : 0 < size.width) (hheight : 0 < size.height)
    (hlow : size.height < 2000) :
    let labelAt := fun p =>
      @View.label ℚ (scalar exp exp2) v.scale (@View.toPlane ℚ (scalar exp exp2) v size p)
    (∀ e : ℤ, 10 ^ e ≤ v.scale / 1000 → v.scale / 1000 < 10 ^ (e + 1) →
      (@View.labelDecimals ℚ (scalar exp exp2) v.scale : ℤ) = max 0 (min 17 (-e))) ∧
    (∀ p q, 1 ≤ |p.x - q.x| → View.labelRe (labelAt p) ≠ View.labelRe (labelAt q)) ∧
    ∀ p q, 1 ≤ |p.y - q.y| → View.labelIm (labelAt p) ≠ View.labelIm (labelAt q) := by
  intro labelAt
  have hplane (p : ScreenPoint ℚ) := toPlane_eq_corner exp exp2 p hwidth hheight (v := v)
  refine ⟨fun e => labelDecimals_eq exp exp2, ?_, ?_⟩
  · intro p q hpq heq
    have htexts := (@View.labelRe_label ℚ (scalar exp exp2) _ _).symm.trans
      (heq.trans (@View.labelRe_label ℚ (scalar exp exp2) _ _))
    refine fixedText_ne_of_pixel exp exp2 hscale hheight hlow ?_ hpq (String.toList_inj.mp htexts)
    rw [hplane p, hplane q, add_sub_add_left_eq_sub, mul_sub]
  · intro p q hpq heq
    have htexts := (@View.labelIm_label ℚ (scalar exp exp2) _ _).symm.trans
      (heq.trans (@View.labelIm_label ℚ (scalar exp exp2) _ _))
    rw [abs_sub_comm] at hpq
    refine fixedText_ne_of_pixel exp exp2 hscale hheight hlow ?_ hpq (String.toList_inj.mp htexts)
    rw [hplane p, hplane q, sub_sub_sub_cancel_left, mul_sub]

/-- A thousandth of the scale is a power of ten, so that a unit of the last decimal is all of it,
and a pixel is hardly more. -/
theorem labels_tell_pixels_apart_fine :
    let exp : ℚ → ℚ := fun _ => 1
    let v : View ℚ := ⟨⟨1 / 3, -2⟩, 1 / 100, 1⟩
    let size : ScreenSize ℚ := ⟨800, 1999⟩
    let labelAt := fun p =>
      @View.label ℚ (scalar exp exp) v.scale (@View.toPlane ℚ (scalar exp exp) v size p)
    10 ^ (-14 : ℤ) ≤ v.scale ∧ 0 < size.width ∧ 0 < size.height ∧ size.height < 2000 ∧
      @View.labelDecimals ℚ (scalar exp exp) v.scale = 5 ∧
      View.labelRe (labelAt ⟨10, 7⟩) ≠ View.labelRe (labelAt ⟨11, 7⟩) ∧
      View.labelIm (labelAt ⟨10, 7⟩) ≠ View.labelIm (labelAt ⟨10, 6⟩) := by
  intro exp v size labelAt
  have hscale : 10 ^ (-14 : ℤ) ≤ v.scale := by norm_num [v]
  have hwidth : 0 < size.width := by norm_num [size]
  have hheight : 0 < size.height := by norm_num [size]
  have hlow : size.height < 2000 := by norm_num [size]
  obtain ⟨hdecimals, hre, him⟩ :=
    labels_tell_pixels_apart exp exp v size hscale hwidth hheight hlow
  have hfive := hdecimals (-5) (by norm_num [v]) (by norm_num [v])
  refine ⟨hscale, hwidth, hheight, hlow, by omega, hre _ _ ?_, him _ _ ?_⟩
  · norm_num
  · norm_num

end Exact

/-! Labels of doubles -/

namespace Double

open Float.Model Float.Model.UnpackedFloat

section

variable {x : Float} (hx : x.isFinite = true)

include hx

/-- Adding zero takes the sign away from a zero and from nothing else. -/
theorem isNegative_add_zero_iff : isNegative (x + 0.0) = true ↔ value x < 0 := by
  have hpos : (0 : ℚ) < 2 ^ (magnitude x).exponent := by positivity
  by_cases hneg : isNegative x = true
  · by_cases hzero : (magnitude x).mantissa = 0
    · have hunpack : x.toModel.unpack = .zero .negative := by
        rw [unpack_eq, if_neg (biased_ne_of_isFinite hx), dif_pos hzero, sign, if_pos hneg]
      have hadd : x + 0.0 = Float.ofModel (Float.Model.pack
          (UnpackedFloat.add .binary64 x.toModel.unpack (.zero .positive))) := rfl
      have hvalue : value x = 0 := by simp [value, hzero]
      rw [hadd, hunpack, hvalue]
      exact iff_of_false (by decide) (lt_irrefl 0)
    · have hmantissa : (0 : ℚ) < (magnitude x).mantissa := by
        exact_mod_cast Nat.pos_of_ne_zero hzero
      have hvalue : value x < 0 := by
        rw [value, if_pos hneg, neg_one_mul, neg_lt_zero]
        positivity
      rcases add_zero_cases hx with hsame | ⟨rfl, -⟩
      · rw [hsame]
        exact iff_of_true hneg hvalue
      · exact absurd rfl hzero
  · have hvalue : 0 ≤ value x := by
      rw [value, if_neg hneg, one_mul]
      positivity
    rcases add_zero_cases hx with hsame | ⟨rfl, -⟩
    · rw [hsame]
      exact iff_of_false hneg (not_lt.mpr hvalue)
    · exact absurd rfl hneg

/-- The quantity that a label rounds. -/
theorem exists_quantity_add_zero :
    ∃ negative num den, quantity (x + 0.0) = .finite negative num den ∧ 0 < den ∧
      (num / den : ℚ) = |value x| ∧ (negative = true ↔ value x < 0) := by
  have hnegative := isNegative_add_zero_iff hx
  have hsum : (x + 0.0).isFinite = true ∧ |value (x + 0.0)| = |value x| := by
    rcases add_zero_cases hx with hsame | ⟨rfl, hzero⟩
    · rw [hsame]
      exact ⟨hx, rfl⟩
    · have hmagnitude : magnitude (-0.0) = magnitude 0.0 := rfl
      rw [hzero, abs_value, abs_value, hmagnitude]
      exact ⟨rfl, rfl⟩
  generalize x + 0.0 = y at *
  refine ⟨isNegative y, _, _, if_neg (biased_ne_of_isFinite hsum.1), ?_, ?_, hnegative⟩
  · exact (powRatio_pos (by decide) _).2
  · rw [← hsum.2, abs_value, Binary.ratio]
    push_cast
    rw [mul_div_assoc, cast_powRatio (by decide)]
    rfl

/-- A part is shown as a negative zero exactly if it is negative and at most half a unit of the last
decimal. -/
theorem isNegativeZero_fixedText_iff (places : ℕ) :
    Text.IsNegativeZero (Scalar.fixedText places x).toList ↔
      value x < 0 ∧ 2 * |value x| * 10 ^ places ≤ 1 := by
  obtain ⟨negative, num, den, hquantity, hden, habs, hnegative⟩ := exists_quantity_add_zero hx
  have htext : Scalar.fixedText places x = (quantity (x + 0.0)).fixed places := rfl
  have hden' : (0 : ℚ) < den := by exact_mod_cast hden
  rw [htext, hquantity, Quantity.isNegativeZero_fixed_iff _ _ _ _ hden, hnegative, ← habs,
    ← Nat.cast_le (α := ℚ)]
  push_cast
  rw [← mul_div_assoc, div_mul_eq_mul_div, div_le_one hden', mul_assoc]

end

theorem Shows.mantissa_le {em : ExtendedMantissa} {q : ℚ} (h : Shows em q) :
    (em.mantissa : ℚ) ≤ q := by
  obtain ⟨m, round, sticky⟩ := em
  cases round <;> cases sticky <;> simp only [Shows] at h ⊢ <;> linarith

/-- What is left of a number above zero without its fraction is not more than the number. -/
theorem toNat_roundToInt_le (s : Sign) (m : ℕ) (e : ℤ) :
    ((roundToInt s m e).toNat : ℚ) ≤ max 0 (((s.apply m : ℤ) : ℚ) * 2 ^ e) := by
  cases s with
  | negative =>
      have hzero : (roundToInt .negative m e).toNat = 0 := Int.toNat_neg_natCast _
      rw [hzero, Nat.cast_zero]
      exact le_max_left _ _
  | positive =>
      have hshift : e - (e.toNat : ℤ) = -((e.toNat - e).toNat : ℤ) := by omega
      have hvalue := cast_shiftLeft m e.toNat e
      rw [hshift, zpow_neg, zpow_natCast, ← div_eq_mul_inv] at hvalue
      have hshows := (shows_exact (m <<< e.toNat)).shiftRight (e.toNat - e).toNat
      rw [hvalue] at hshows
      refine le_trans ?_ (le_max_right _ _)
      have hround : (roundToInt .positive m e).toNat =
          (ExtendedMantissa.ofMantissaAndAccuracy (m <<< e.toNat) .exact >>>
            (e.toNat - e).toNat).mantissa := by
        have hamount : (0 - (e - (e.toNat : ℤ))).toNat = (e.toNat - e).toNat := by
          congr 1
          omega
        simp only [roundToInt, decreaseExponent, shiftToExponent, Int.sub_zero, hamount]
        rfl
      rw [hround]
      exact hshows.mantissa_le

/-- The counting number below a double is not more than the double. -/
theorem toNat_toUInt64_le {x : Float} (hx : x.isFinite = true) :
    (x.toUInt64.toNat : ℚ) ≤ max 0 (value x) := by
  have hfinite : x.toModel.unpack.isFinite = true := hx
  have hclamp (n : ℕ) : (UInt64.ofNatClamp n).toNat ≤ n := by
    by_cases hn : n < UInt64.size
    · rw [UInt64.toNat_ofNatClamp_of_lt hn]
    · exact (UInt64.toNat_lt _).le.trans (not_lt.mp hn)
  have htoUInt64 : x.toUInt64 =
    UInt64.ofNatClamp (x.toModel.unpack.toInt 0 (UInt64.size - 1)).toNat := rfl
  rw [htoUInt64, ← unpackedValue_unpack hx]
  refine le_trans (Nat.cast_le.mpr (hclamp _)) ?_
  generalize x.toModel.unpack = u at *
  cases u with
  | notANumber => cases hfinite
  | infinity s => cases hfinite
  | zero s => exact le_max_left _ _
  | finite s m e hm => exact toNat_roundToInt_le s m e

theorem isFinite_of_pos_of_le {x y : Float} (hpos : ¬x ≤ 0.0) (hy : y.isFinite = true)
    (hle : x ≤ y) : x.isFinite = true := by
  have hfinite : y.toModel.unpack.isFinite = true := hy
  have hle' : x.toModel.unpack.le y.toModel.unpack = true := decide_eq_true_iff.mp hle
  have hpos' : ¬x.toModel.unpack.le (.zero .positive) = true := mt decide_eq_true_iff.mpr hpos
  change x.toModel.unpack.isFinite = true
  generalize x.toModel.unpack = u at *
  generalize y.toModel.unpack = w at *
  cases u with
  | notANumber => cases w <;> cases hle'
  | infinity s =>
      cases s with
      | negative => exact absurd rfl hpos'
      | positive =>
          cases w with
          | infinity s => cases hfinite
          | _ => cases hle'
  | zero s => rfl
  | finite s m e hm => rfl

/-- No label has more than the most decimals. -/
theorem decimals_le (x : Float) : decimals View.maxLabelDecimals x ≤ View.maxLabelDecimals := by
  rw [decimals]
  generalize -x.log10.floor = lead
  split_ifs with hzero hmost hnan
  · exact Nat.zero_le _
  · have hfinite := isFinite_of_pos_of_le hzero rfl hmost
    have hcanonical := canonical_of_isFinite hfinite
    rw [le_iff_place_le hcanonical (canonical_of_isFinite rfl),
      place_eq_nearestPlace hcanonical hfinite, unpackedValue_unpack hfinite] at hmost
    by_contra hmore
    -- Eighteen is a double above seventeen.
    have heighteen : place View.maxLabelDecimals.toFloat.toModel.unpack < nearestPlace 18 := by
      decide +kernel
    have hvalue : 18 ≤ value lead := by
      have hcount : (18 : ℚ) ≤ lead.toUInt64.toNat := by
        have hnat : 18 ≤ lead.toUInt64.toNat := not_le.mp hmore
        exact_mod_cast hnat
      rcases le_max_iff.mp (hcount.trans (toNat_toUInt64_le hfinite)) with hnone | hvalue
      · norm_num at hnone
      · exact hvalue
    have hmono := nearestPlace_mono hvalue
    omega
  · exact Nat.zero_le _
  · exact le_rfl

end Double

namespace View

open Double Text

theorem value_tiny : value (-1e-20) = -(6646139978924579 * 2 ^ (-119 : ℤ)) := by
  have hmagnitude : magnitude (-1e-20) = ⟨6646139978924579, -119, false⟩ := by decide +kernel
  have hnegative : isNegative (-1e-20) = true := by decide +kernel
  rw [value, if_pos hnegative, hmagnitude, neg_one_mul, Nat.cast_ofNat]

/-- Whatever the scale, there are not enough decimals to tell it from zero. -/
theorem tiny_rounds_to_zero (scale : Float) :
    value (-1e-20) < 0 ∧ 2 * |value (-1e-20)| * 10 ^ labelDecimals scale ≤ 1 := by
  have hdecimals : (10 : ℚ) ^ labelDecimals scale ≤ 10 ^ 17 :=
    pow_le_pow_right₀ (by norm_num) (decimals_le _)
  have hunit : (2 * |value (-1e-20)| : ℚ) * 10 ^ 17 ≤ 1 := by
    rw [value_tiny]
    norm_num
  refine ⟨by rw [value_tiny]; norm_num, le_trans ?_ hunit⟩
  gcongr

/-- A label shows a negative zero exactly where a part is negative and rounds to zero: where it is
at most half a unit of the last decimal, of which there are never more than seventeen. A part that
is zero never has a sign, whatever the sign of the double. -/
theorem label_shows_negative_zero_iff (scale : Float) (z : PlanePoint Float)
    (hre : z.re.isFinite = true) (him : z.im.isFinite = true) :
    (IsNegativeZero (labelRe (label scale z)) ↔
      value z.re < 0 ∧ 2 * |value z.re| * 10 ^ labelDecimals scale ≤ 1) ∧
    (IsNegativeZero (labelIm (label scale z)) ↔
      value z.im < 0 ∧ 2 * |value z.im| * 10 ^ labelDecimals scale ≤ 1) ∧
    labelDecimals scale ≤ 17 := by
  rw [labelRe_label, labelIm_label]
  exact ⟨isNegativeZero_fixedText_iff hre _, isNegativeZero_fixedText_iff him _,
    decimals_le _⟩

/-- A tiny number below zero is shown with its sign, and a zero is not. -/
theorem label_shows_negative_zero_iff_tiny :
    let z : PlanePoint Float := ⟨-1e-20, -0.0⟩
    z.re.isFinite = true ∧ z.im.isFinite = true ∧
      IsNegativeZero (labelRe (label 3.0 z)) ∧ ¬IsNegativeZero (labelIm (label 3.0 z)) := by
  intro z
  have hre : z.re.isFinite = true := by decide +kernel
  have him : z.im.isFinite = true := by decide +kernel
  have hzero : value z.im = 0 := by
    have hmantissa : (magnitude z.im).mantissa = 0 := by decide +kernel
    simp [value, hmantissa]
  obtain ⟨hshows, hshows', -⟩ := label_shows_negative_zero_iff 3.0 z hre him
  refine ⟨hre, him, hshows.mpr (tiny_rounds_to_zero 3.0), ?_⟩
  rw [hshows', hzero]
  exact fun h => lt_irrefl 0 h.1

/-- The label of a finite point at an everyday scale can show a negative zero. -/
theorem tiny_label_has_sign :
    let z : PlanePoint Float := ⟨-1e-20, 0.0⟩
    z.re.isFinite = true ∧ z.im.isFinite = true ∧ Scalar.isMeasure (3.0 : Float) = true ∧
      IsNegativeZero (labelRe (label 3.0 z)) := by
  intro z
  have hre : z.re.isFinite = true := by decide +kernel
  refine ⟨hre, by decide +kernel, by decide +kernel, ?_⟩
  rw [labelRe_label]
  exact (isNegativeZero_fixedText_iff hre _).mpr (tiny_rounds_to_zero 3.0)

end View

end PlotPane
