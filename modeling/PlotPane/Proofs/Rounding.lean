import Mathlib.Algebra.Order.Round
import Mathlib.Data.Rat.Floor
import PlotPane.Number.Scalar

/-!
# Rounding

The rounded quotient of two naturals is the integer nearest to their rational quotient. From this
the count of pixels on one side of a surface is the nearest integer to its length, between one pixel
and the largest count there is.
-/

namespace PlotPane

theorem roundDiv_away_eq_div {num den : ℕ} (hden : 0 < den) :
    roundDiv .away num den = (2 * num + den) / (2 * den) := by
  have hrest : num % den < den := Nat.mod_lt num hden
  -- Twice the remainder decides, once the whole part is taken out on both sides.
  have hsplit : 2 * num + den = 2 * (num % den) + den + 2 * den * (num / den) := by
    have hnum := Nat.mod_add_div num den
    rw [mul_assoc]
    omega
  rw [hsplit, Nat.add_mul_div_left _ _ (by omega : 0 < 2 * den)]
  simp only [roundDiv, Tie.goesUp, Bool.and_true, Bool.or_eq_true, decide_eq_true_eq, beq_iff_eq]
  by_cases hhalf : den ≤ 2 * (num % den)
  · have hone : (2 * (num % den) + den) / (2 * den) = 1 :=
      Nat.div_eq_of_lt_le (by omega) (by omega)
    rw [if_pos (by omega), hone, Nat.add_comm]
  · have hzero : (2 * (num % den) + den) / (2 * den) = 0 := Nat.div_eq_of_lt (by omega)
    rw [if_neg (by omega), hzero, Nat.zero_add]

theorem cast_roundDiv_away {num den : ℕ} (hden : 0 < den) :
    (roundDiv .away num den : ℤ) = round (num / den : ℚ) := by
  have hquot : (num / den : ℚ) + 1 / 2 = ((2 * num + den : ℕ) : ℚ) / ((2 * den : ℕ) : ℚ) := by
    have hden' : (den : ℚ) ≠ 0 := by exact_mod_cast hden.ne'
    push_cast
    field_simp
  rw [round_eq, hquot, Rat.floor_natCast_div_natCast, roundDiv_away_eq_div hden]
  exact Int.natCast_div _ _

/-- The whole pixels that a length is rounded to: the integer nearest to it, at least one and at
most the largest count. -/
def Quantity.nearestPixels : Quantity → ℕ
  | .nan => 1
  | .infinite negative => if negative then 1 else Scalar.maxPixels
  | .finite negative num den =>
    min Scalar.maxPixels
      (max 1 (round (if negative then -(num / den : ℚ) else (num / den : ℚ))).toNat)

namespace Scalar

variable {α : Type} [Scalar α]

theorem pixels_eq_nearest (x : α) : pixels x = (quantity x).nearestPixels := by
  rw [pixels]
  cases quantity x with
  | nan => rfl
  | infinite negative => cases negative <;> rfl
  | finite negative num den =>
      cases negative with
      | false =>
          rcases Nat.eq_zero_or_pos den with rfl | hden
          · -- A fraction over zero counts as zero, and one pixel is the least count.
            have hup : 0 < num ∨ num = 0 := num.eq_zero_or_pos.symm
            simp [Quantity.nearestPixels, roundDiv, Tie.goesUp, hup]
          · rw [Quantity.nearestPixels, if_neg Bool.false_ne_true, ← cast_roundDiv_away hden]
            simp
      | true =>
          have hneg : round (-(num / den : ℚ)) ≤ 0 := by
            have hnonneg : (0 : ℚ) ≤ num / den := by positivity
            rw [round_eq, ← Int.lt_add_one_iff, Int.floor_lt]
            push_cast
            linarith
          rw [Quantity.nearestPixels, if_pos rfl, Int.toNat_of_nonpos hneg]
          rfl

theorem one_le_pixels (x : α) : 1 ≤ pixels x := by
  rw [pixels]
  split
  · have hmax : 1 ≤ maxPixels := by decide
    omega
  · decide
  · exact le_rfl

end Scalar

end PlotPane
