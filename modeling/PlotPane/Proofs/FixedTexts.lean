import PlotPane.Number.Layout
import PlotPane.Proofs.NearestOrder
import PlotPane.Proofs.Numerals

/-!
# Texts with a fixed number of decimals

A text with a fixed number of decimals counts units of its last place. The count is the integer
nearest to the quantity in these units, and it can be read off the text again: without the point its
digits are those of the count. The sign in front is the sign of the quantity and not of the count,
so it stays where the count is zero.
-/

namespace PlotPane

/-! Rounding to units -/

/-- The rounded quotient is nearest to the quotient. -/
theorem abs_roundDiv_sub_le (num : ℕ) {den : ℕ} (hden : 0 < den) :
    |(roundDiv .toEven num den : ℚ) - num / den| ≤ 1 / 2 := by
  have hnonneg : (0 : ℚ) ≤ num / den := by positivity
  obtain ⟨m, hlow, hhigh, hodd⟩ := Double.exists_nearest hnonneg
  rw [roundDiv_toEven_of_cast hden hlow hhigh hodd, abs_le]
  exact ⟨by linarith, by linarith⟩

/-- A half goes to zero, which is even. -/
theorem roundDiv_toEven_eq_zero_iff {num den : ℕ} (hden : 0 < den) :
    roundDiv .toEven num den = 0 ↔ 2 * num ≤ den := by
  constructor
  · intro hzero
    have hnear := abs_roundDiv_sub_le num hden
    have hden' : (0 : ℚ) < den := by exact_mod_cast hden
    rw [hzero, Nat.cast_zero, zero_sub, abs_neg, abs_of_nonneg (by positivity),
      div_le_iff₀ hden'] at hnear
    have hcast : (2 * num : ℚ) ≤ den := by linarith
    exact_mod_cast hcast
  · intro hle
    apply roundDiv_toEven_eq hden
    · omega
    · omega
    · intro hodd
      cases hodd

namespace Layout

open Literal

/-! The digits of a count -/

/-- The digits of `n` behind so many zeros that there are more digits than `places`. -/
def padded (places n : ℕ) : List Char :=
  zeros (places + 1 - (decimalChars n).length) ++ decimalChars n

/-- The digits of `n` with a point before the last `places` of them. -/
def pointed (places n : ℕ) : List Char :=
  let whole := (padded places n).take ((padded places n).length - places)
  let tail := (padded places n).drop ((padded places n).length - places)
  if places = 0 then whole else whole ++ '.' :: tail

variable (places n : ℕ)

theorem digits_padded : Digits (padded places n) where
  ne_nil := List.append_ne_nil_of_right_ne_nil _ (digits_decimalChars n).ne_nil
  isDigit := by
    intro c hc
    rcases List.mem_append.mp hc with hc | hc
    · exact isDigit_zeros hc
    · exact (digits_decimalChars n).isDigit c hc

theorem digitsValue_padded : digitsValue (padded places n) = n := by
  rw [padded, digitsValue_append, digitsValue_zeros, digitsValue_decimalChars, Nat.mul_zero,
    Nat.zero_add]

theorem lt_length_padded : places < (padded places n).length := by
  rw [padded, List.length_append, zeros, List.length_replicate]
  omega

theorem padded_zero : padded places 0 = zeros (places + 1) := by
  have hdigit : decimalChars 0 = zeros 1 := rfl
  rw [padded, hdigit, zeros, zeros, zeros, List.length_replicate, Nat.add_sub_cancel,
    List.replicate_append_replicate]

/-- The point stands somewhere behind the first digit, if it stands anywhere. -/
theorem pointed_cases :
    pointed places n = padded places n ∨
      ∃ whole tail, whole ≠ [] ∧ padded places n = whole ++ tail ∧
        pointed places n = whole ++ '.' :: tail := by
  have hlength := lt_length_padded places n
  by_cases hplaces : places = 0
  · left
    rw [pointed, if_pos hplaces, hplaces, Nat.sub_zero, List.take_length]
  · right
    refine ⟨_, _, ?_, (List.take_append_drop _ _).symm, if_neg hplaces⟩
    rw [← List.length_pos_iff, List.length_take]
    omega

theorem filter_pointed : (pointed places n).filter Char.isDigit = padded places n := by
  have hkeep (cs : List Char) (h : ∀ c ∈ cs, c ∈ padded places n) :
      cs.filter Char.isDigit = cs :=
    List.filter_eq_self.mpr fun c hc => (digits_padded places n).isDigit c (h c hc)
  rcases pointed_cases places n with heq | ⟨whole, tail, -, hsplit, heq⟩
  · rw [heq]
    exact hkeep _ fun c hc => hc
  · have hwhole := hkeep whole fun c hc => hsplit ▸ List.mem_append_left _ hc
    have htail := hkeep tail fun c hc => hsplit ▸ List.mem_append_right _ hc
    rw [heq, List.filter_append, List.filter_cons_of_neg (by decide), hwhole, htail, hsplit]

theorem mem_pointed {c : Char} (hc : c ∈ pointed places n) : c ∈ padded places n ∨ c = '.' := by
  rcases pointed_cases places n with heq | ⟨whole, tail, -, hsplit, heq⟩
  · rw [heq] at hc
    exact .inl hc
  · rw [heq, List.mem_append, List.mem_cons] at hc
    rw [hsplit, List.mem_append]
    tauto

theorem head_pointed : ∃ c cs, pointed places n = c :: cs ∧ c.isDigit = true := by
  have hdigit := (digits_padded places n).isDigit
  rcases pointed_cases places n with heq | ⟨whole, tail, hne, hsplit, heq⟩
  · obtain ⟨c, cs, hcons, hc⟩ := (digits_padded places n).head
    exact ⟨c, cs, heq.trans hcons, hc⟩
  · obtain ⟨c, cs, rfl⟩ := List.exists_cons_of_ne_nil hne
    refine ⟨c, cs ++ '.' :: tail, heq, hdigit c ?_⟩
    rw [hsplit]
    exact List.mem_cons_self

theorem count_point_pointed : (pointed places n).count '.' ≤ 1 := by
  have hnone (cs : List Char) (h : ∀ c ∈ cs, c ∈ padded places n) : cs.count '.' = 0 := by
    rw [List.count_eq_zero]
    intro hmem
    exact absurd ((digits_padded places n).isDigit '.' (h '.' hmem)) (by decide)
  rcases pointed_cases places n with heq | ⟨whole, tail, -, hsplit, heq⟩
  · rw [heq, hnone _ fun c hc => hc]
    exact Nat.zero_le 1
  · have hwhole := hnone whole fun c hc => hsplit ▸ List.mem_append_left _ hc
    have htail := hnone tail fun c hc => hsplit ▸ List.mem_append_right _ hc
    rw [heq, List.count_append, List.count_cons_self, hwhole, htail]

end Layout

namespace Text

/-- The units of the last place that a text with decimals counts, with its sign. -/
def shownUnits (cs : List Char) : ℤ :=
  (if cs.head? = some '-' then -1 else 1) * Literal.digitsValue (cs.filter Char.isDigit)

/-- A minus sign and then only zeros, perhaps with one point among them. -/
def IsNegativeZero (cs : List Char) : Prop :=
  ∃ zeros, cs = '-' :: zeros ∧ (∀ c ∈ zeros, c = '0' ∨ c = '.') ∧ zeros.count '.' ≤ 1

end Text

namespace Quantity

open Layout Literal Text

/-- The number that a finite quantity is. -/
def value : Quantity → ℚ
  | .finite negative num den => (if negative then -1 else 1) * (num / den)
  | .nan | .infinite _ => 0

variable (places : ℕ) (negative : Bool) (num den : ℕ)

theorem toList_fixed :
    ((Quantity.finite negative num den).fixed places).toList =
      if negative then '-' :: pointed places (roundDiv .toEven (num * 10 ^ places) den)
      else pointed places (roundDiv .toEven (num * 10 ^ places) den) := by
  rw [fixed, String.toList_ofList]
  rfl

theorem shownUnits_fixed :
    shownUnits ((Quantity.finite negative num den).fixed places).toList =
      (if negative then -1 else 1) * (roundDiv .toEven (num * 10 ^ places) den : ℤ) := by
  rw [toList_fixed]
  generalize roundDiv .toEven (num * 10 ^ places) den = n
  have hvalue : digitsValue ((pointed places n).filter Char.isDigit) = n := by
    rw [filter_pointed, digitsValue_padded]
  cases negative with
  | true =>
      rw [if_pos rfl, if_pos rfl, shownUnits, if_pos (List.head?_cons),
        List.filter_cons_of_neg (by decide), hvalue]
  | false =>
      have hhead : (pointed places n).head? ≠ some '-' := by
        obtain ⟨c, cs, heq, hc⟩ := head_pointed places n
        rw [heq, List.head?_cons, ne_eq, Option.some.injEq]
        rintro rfl
        exact absurd hc (by decide)
      rw [if_neg Bool.false_ne_true, if_neg Bool.false_ne_true, shownUnits, if_neg hhead, hvalue]

/-- The text counts the units nearest to the quantity. -/
theorem abs_shownUnits_sub_le (hden : 0 < den) :
    |(shownUnits ((Quantity.finite negative num den).fixed places).toList : ℚ) -
      (Quantity.finite negative num den).value * 10 ^ places| ≤ 1 / 2 := by
  have hnear := abs_roundDiv_sub_le (num * 10 ^ places) hden
  have hscaled : ((num * 10 ^ places : ℕ) : ℚ) / den = num / den * 10 ^ places := by
    push_cast
    ring
  rw [hscaled] at hnear
  rw [shownUnits_fixed, value]
  cases negative with
  | true =>
      rw [if_pos rfl, if_pos rfl]
      push_cast
      rw [neg_one_mul, neg_one_mul, neg_mul, neg_sub_neg, abs_sub_comm]
      exact hnear
  | false =>
      rw [if_neg Bool.false_ne_true, if_neg Bool.false_ne_true]
      push_cast
      rw [one_mul, one_mul]
      exact hnear

/-- Quantities that are more than a unit apart are counted apart. -/
theorem fixed_ne_of_lt {places : ℕ} {negative negative' : Bool} {num num' den den' : ℕ}
    (hden : 0 < den) (hden' : 0 < den')
    (h : 1 < |(Quantity.finite negative num den).value -
      (Quantity.finite negative' num' den').value| * 10 ^ places) :
    (Quantity.finite negative num den).fixed places ≠
      (Quantity.finite negative' num' den').fixed places := by
  intro heq
  have hnear := abs_shownUnits_sub_le places negative num den hden
  have hnear' := abs_shownUnits_sub_le places negative' num' den' hden'
  rw [heq] at hnear
  generalize (shownUnits _ : ℚ) = n at hnear hnear'
  have hpow : (0 : ℚ) < 10 ^ places := by positivity
  rw [← abs_of_pos hpow, ← abs_mul, sub_mul] at h
  rw [abs_le] at hnear hnear'
  rcases lt_abs.mp h with h | h
  · linarith [hnear.1, hnear'.2]
  · linarith [hnear.2, hnear'.1]

/-- The sign of a zero is shown exactly for a negative quantity of at most half a unit. -/
theorem isNegativeZero_fixed_iff (hden : 0 < den) :
    IsNegativeZero ((Quantity.finite negative num den).fixed places).toList ↔
      negative = true ∧ 2 * (num * 10 ^ places) ≤ den := by
  rw [← roundDiv_toEven_eq_zero_iff hden, toList_fixed]
  generalize roundDiv .toEven (num * 10 ^ places) den = n
  constructor
  · rintro ⟨cs, heq, hcs, -⟩
    cases negative with
    | false =>
        obtain ⟨c, rest, hcons, hc⟩ := head_pointed places n
        rw [if_neg Bool.false_ne_true, hcons, List.cons.injEq] at heq
        exact absurd hc (heq.1 ▸ by decide)
    | true =>
        rw [if_pos rfl, List.cons.injEq] at heq
        refine ⟨rfl, ?_⟩
        -- All digits are zeros, and so is what they count.
        have hzeros : padded places n = zeros (padded places n).length := by
          apply List.eq_replicate_of_mem
          intro c hc
          rw [← filter_pointed, List.mem_filter, heq.2] at hc
          rcases hcs c hc.1 with hzero | hpoint
          · exact hzero
          · rw [hpoint] at hc
            exact absurd hc.2 (by decide)
        rw [← digitsValue_padded places n, hzeros, digitsValue_zeros]
  · rintro ⟨rfl, rfl⟩
    refine ⟨_, if_pos rfl, ?_, count_point_pointed places 0⟩
    intro c hc
    rcases mem_pointed places 0 hc with hdigit | hpoint
    · rw [padded_zero] at hdigit
      exact .inl (List.eq_of_mem_replicate hdigit)
    · exact .inr hpoint

/-- No text of a number holds a space. -/
theorem space_not_mem_fixed (q : Quantity) : ' ' ∉ (q.fixed places).toList := by
  cases q with
  | nan => exact (by decide : ' ' ∉ "NaN".toList)
  | infinite negative =>
      cases negative with
      | false => exact (by decide : ' ' ∉ "inf".toList)
      | true => exact (by decide : ' ' ∉ "-inf".toList)
  | finite negative num den =>
      have hpointed (n : ℕ) : ' ' ∉ pointed places n := by
        intro hmem
        rcases mem_pointed places n hmem with hdigit | hpoint
        · exact absurd ((digits_padded places n).isDigit ' ' hdigit) (by decide)
        · exact absurd hpoint (by decide)
      rw [toList_fixed]
      cases negative with
      | false => exact hpointed _
      | true =>
          rw [if_pos rfl, List.mem_cons, not_or]
          exact ⟨by decide, hpointed _⟩

end Quantity

end PlotPane
