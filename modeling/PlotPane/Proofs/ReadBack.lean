import Mathlib
import PlotPane.Number.Double
import PlotPane.Proofs.Numerals

/-!
# A field's text reads back as its number

The digits chosen for a double round to it, whichever grid they were found on. Laid out with the
point in its place they are a literal of the same value, with no blanks to be trimmed. So the text
of a finite double reads as that double, bit for bit, and the text shown in a field, where a
negative zero is made positive, reads as a double that compares equal to it.
-/

namespace PlotPane

namespace Decimal

theorem value_dropZeros (count : ℕ) (d : Decimal) : (dropZeros count d).value = d.value := by
  induction count generalizing d with
  | zero => rfl
  | succ count ih =>
    rw [dropZeros]
    split
    · rename_i hzero
      have hdigits : (d.digits : ℚ) = (d.digits / 10 : ℕ) * 10 := by
        exact_mod_cast (Nat.div_mul_cancel (Nat.dvd_of_mod_eq_zero hzero)).symm
      rw [ih, value, value, hdigits, zpow_add_one₀ (by norm_num)]
      ring
    · rfl

theorem value_normalize (d : Decimal) : d.normalize.value = d.value := by
  rw [normalize]
  split
  · rename_i hzero
    simp [value, hzero]
  · exact value_dropZeros _ d

/-- Zero has no exponent once it is normalized. -/
theorem exponent_normalize_of_digits_eq_zero (d : Decimal) (h : d.normalize.digits = 0) :
    d.normalize.exponent = 0 := by
  have hdrop (count : ℕ) (d : Decimal) (hd : d.digits ≠ 0) : (dropZeros count d).digits ≠ 0 := by
    induction count generalizing d with
    | zero => exact hd
    | succ count ih =>
      rw [dropZeros]
      split
      · exact ih _ (by simp only; omega)
      · exact hd
  rw [normalize] at h ⊢
  split
  · rfl
  · rename_i hd
    rw [if_neg hd] at h
    exact absurd h (hdrop _ d hd)

end Decimal

namespace Binary

theorem attracts_self (b : Binary) : b.Attracts (b.mantissa * 2 ^ b.exponent) := by
  have hself : (b.mantissa * 2 ^ b.exponent : ℚ) / 2 ^ b.exponent = b.mantissa :=
    mul_div_cancel_right₀ _ (by positivity)
  constructor
  · rw [hself]
    split <;> linarith
  · rw [hself]
    linarith
  · intro _
    rw [hself]
    exact ⟨by linarith, by linarith⟩

end Binary

namespace Shortest

theorem value_exact (b : Binary) : (exact b).value = b.mantissa * 2 ^ b.exponent := by
  rw [exact]
  split
  · rename_i hexp
    obtain ⟨n, hn⟩ := Int.eq_ofNat_of_zero_le hexp
    simp [Decimal.value, hn]
  · rename_i hexp
    obtain ⟨n, hn⟩ := Int.eq_ofNat_of_zero_le (by omega : 0 ≤ -b.exponent)
    have hneg : b.exponent = -(n : ℤ) := by omega
    have hten : (10 : ℚ) ^ n = 2 ^ n * 5 ^ n := by
      rw [← mul_pow]
      norm_num
    simp only [Decimal.value, hneg, neg_neg, Int.toNat_natCast, Nat.pow_eq, zpow_neg, zpow_natCast,
      hten]
    push_cast
    field_simp

/-- Multiples of two powers are compared by products of naturals. -/
theorem powRatio_mul_le_iff {a b : ℕ} (ha : 0 < a) (hb : 0 < b) (k c : ℕ) (e grid : ℤ) :
    k * ((powRatio a e).1 * (powRatio b grid).2) ≤ c * ((powRatio b grid).1 * (powRatio a e).2) ↔
      (k : ℚ) * (a : ℚ) ^ e ≤ c * (b : ℚ) ^ grid := by
  have hden : (0 : ℚ) < (powRatio a e).2 := by exact_mod_cast (powRatio_pos ha e).2
  have hden' : (0 : ℚ) < (powRatio b grid).2 := by exact_mod_cast (powRatio_pos hb grid).2
  rw [← cast_powRatio ha, ← cast_powRatio hb, mul_div_assoc', mul_div_assoc',
    div_le_div_iff₀ hden hden', ← Nat.cast_le (α := ℚ)]
  push_cast
  rw [mul_assoc, mul_assoc]

/-- The quarters of a step that the search counts in reach as far as what rounds to `b`. -/
theorem attracts_of_quarters {b : Binary} {v : ℚ}
    (hlow : ((4 * b.mantissa - if b.narrow then 1 else 2 : ℕ) : ℚ) / 4 ≤ v / 2 ^ b.exponent)
    (hhigh : v / 2 ^ b.exponent ≤ ((4 * b.mantissa + 2 : ℕ) : ℚ) / 4)
    (hodd : b.mantissa % 2 = 1 →
      ((4 * b.mantissa - if b.narrow then 1 else 2 : ℕ) : ℚ) / 4 < v / 2 ^ b.exponent ∧
        v / 2 ^ b.exponent < ((4 * b.mantissa + 2 : ℕ) : ℚ) / 4) :
    b.Attracts v := by
  have hsub : (4 * b.mantissa : ℚ) ≤
      ((4 * b.mantissa - if b.narrow then 1 else 2 : ℕ) : ℚ) +
        ((if b.narrow then 1 else 2 : ℕ) : ℚ) := by
    exact_mod_cast le_tsub_add
  have hreach : ((if b.narrow then 1 else 2 : ℕ) : ℚ) / 4 = if b.narrow then 1 / 4 else 1 / 2 := by
    split <;> norm_num
  have hhalf : (if b.narrow then 1 / 4 else 1 / 2 : ℚ) ≤ 1 / 2 := by
    split <;> norm_num
  push_cast only [Nat.cast_add, Nat.cast_mul, Nat.cast_ofNat] at hhigh hodd
  constructor
  · linarith
  · linarith
  · intro hm
    obtain ⟨hlow', hhigh'⟩ := hodd hm
    exact ⟨by linarith, by linarith⟩

theorem holds_of_either {p : ℕ → Bool} {x y c : ℕ}
    (h : (if p x then some x else if p y then some y else none) = some c) : p c = true := by
  split at h
  · rename_i hx
    rwa [← Option.some.inj h]
  · split at h
    · rename_i hy
      rwa [← Option.some.inj h]
    · exact absurd h.symm (Option.some_ne_none c)

/-- Whether a multiple of `10 ^ grid` rounds to `b`, by naturals alone. -/
def inside (b : Binary) (grid : ℤ) (c : ℕ) : Bool :=
  let scale := (powRatio 2 (b.exponent - 2)).1 * (powRatio 10 grid).2
  let step := (powRatio 10 grid).1 * (powRatio 2 (b.exponent - 2)).2
  let low := (4 * b.mantissa - if b.narrow then 1 else 2) * scale
  let high := (4 * b.mantissa + 2) * scale
  if b.mantissa % 2 == 0 then decide (low ≤ c * step) && decide (c * step ≤ high)
  else decide (low < c * step) && decide (c * step < high)

theorem inside_of_onGrid {tie : Tie} {b : Binary} {grid : ℤ} {c : ℕ}
    (h : onGrid tie b grid = some c) : inside b grid c = true :=
  holds_of_either h

theorem attracts_of_inside {b : Binary} {grid : ℤ} {c : ℕ} (h : inside b grid c = true) :
    b.Attracts (c * 10 ^ grid) := by
  have hpos : (0 : ℚ) < 2 ^ b.exponent := by positivity
  have hquarter (k : ℕ) : (k : ℚ) * 2 ^ (b.exponent - 2) = k / 4 * 2 ^ b.exponent := by
    rw [zpow_sub₀ two_ne_zero]
    ring
  have hge (k : ℕ) := powRatio_mul_le_iff two_pos (by norm_num : 0 < 10) k c (b.exponent - 2) grid
  have hle (k : ℕ) := powRatio_mul_le_iff (by norm_num : 0 < 10) two_pos c k grid (b.exponent - 2)
  simp only [Nat.cast_ofNat, hquarter] at hge hle
  simp only [← le_div_iff₀ hpos] at hge
  simp only [← div_le_iff₀ hpos] at hle
  simp only [inside, beq_iff_eq] at h
  split at h
  · rename_i heven
    rw [Bool.and_eq_true, decide_eq_true_eq, decide_eq_true_eq, hge, hle] at h
    apply attracts_of_quarters h.1 h.2
    omega
  · rw [Bool.and_eq_true, decide_eq_true_eq, decide_eq_true_eq, ← not_le, ← not_le, hge, hle,
      not_le, not_le] at h
    exact attracts_of_quarters h.1.le h.2.le fun _ => h

/-- The digits chosen for a magnitude round to it. -/
theorem attracts_digits (tie : Tie) (b : Binary) : b.Attracts (digits tie b).value := by
  rw [digits, Decimal.value_normalize]
  cases hhit : (List.range 17).findSome? fun (n : ℕ) =>
      (onGrid tie b (decimalTop b.ratio.1 b.ratio.2 - 1 - (n : ℤ))).map fun c =>
        Decimal.mk c (decimalTop b.ratio.1 b.ratio.2 - 1 - (n : ℤ)) with
  | none =>
    rw [Option.getD_none, value_exact]
    exact b.attracts_self
  | some d =>
    obtain ⟨n, -, hn⟩ := List.exists_of_findSome?_eq_some hhit
    obtain ⟨c, hc, rfl⟩ := Option.map_eq_some_iff.mp hn
    exact attracts_of_inside (inside_of_onGrid hc)

end Shortest

namespace Text

theorem trim_of_not_blank {cs : List Char} (h : ∀ c ∈ cs, isBlank c = false) : trim cs = cs := by
  have hkeep {ds : List Char} (hds : ∀ c ∈ ds, isBlank c = false) : ds.dropWhile isBlank = ds := by
    cases ds with
    | nil => rfl
    | cons c ds => rw [List.dropWhile_cons, if_neg (by simp [hds c])]
  rw [trim, hkeep h, hkeep (fun c hc => h c (List.mem_reverse.mp hc)), List.reverse_reverse]

theorem isBlank_of_isDigit {c : Char} (h : c.isDigit = true) : isBlank c = false := by
  have hrange : 48 ≤ c.toNat ∧ c.toNat ≤ 57 := by
    simpa [Char.isDigit, UInt32.le_iff_toNat_le] using h
  simp only [isBlank, blankRanges, List.any_cons, List.any_nil, Bool.or_eq_false_iff,
    Bool.and_eq_false_iff, decide_eq_false_iff_not, and_true]
  omega

end Text

theorem Literal.Numeral.not_blank {cs : List Char} {l : Literal} (h : Numeral cs l) :
    ∀ c ∈ cs, Text.isBlank c = false := by
  intro c hc
  rcases h.isMark c hc with hdigit | hmark
  · exact Text.isBlank_of_isDigit hdigit
  · simp only [List.mem_cons, List.not_mem_nil, or_false] at hmark
    rcases hmark with rfl | rfl | rfl | rfl | rfl <;> decide

namespace Double

theorem toNat_toBits (x : Float) :
    x.toBits.toNat = if isNegative x then signWeight + (biased x * exponentWeight + fraction x)
      else biased x * exponentWeight + fraction x := by
  have hlt : x.toBits.toNat < UInt64.size := x.toBits.toNat_lt
  rw [UInt64.size] at hlt
  by_cases hneg : signWeight ≤ x.toBits.toNat
  · rw [if_pos (show isNegative x = true from decide_eq_true hneg)]
    simp only [biased, fraction, signWeight, exponentWeight] at hneg ⊢
    omega
  · rw [if_neg (show ¬isNegative x = true from mt of_decide_eq_true hneg)]
    simp only [biased, fraction, signWeight, exponentWeight] at hneg ⊢
    omega

theorem biased_ne_of_isFinite {x : Float} (hx : x.isFinite = true) : biased x ≠ topExponent := by
  intro htop
  have hones : @Float.Model.UnpackedFloat.unpackExponent .binary64
      x.toBits.toBitVec = -1#11 := by
    apply BitVec.eq_of_toNat_eq
    rw [Float.Model.UnpackedFloat.unpackExponent_def, BitVec.extractLsb'_toNat,
      Nat.shiftRight_eq_div_pow]
    exact htop
  have hfinite : (Float.Model.UnpackedFloat.unpack .binary64 x.toBits.toBitVec).isFinite = true :=
    hx
  simp only [Float.Model.UnpackedFloat.unpack] at hfinite
  rw [if_pos hones] at hfinite
  split at hfinite <;> exact Bool.false_ne_true hfinite

theorem biased_lt_of_isFinite {x : Float} (hx : x.isFinite = true) : biased x < topExponent := by
  have hlt : biased x < 2048 := Nat.mod_lt _ (by decide)
  have hne := biased_ne_of_isFinite hx
  rw [topExponent] at hne ⊢
  omega

/-- A decimal number that rounds to the magnitude of a double is read as the double. -/
theorem ofDecimal_eq_self {x : Float} (hx : x.isFinite = true) {d : Decimal}
    (h : (magnitude x).Attracts d.value) : ofDecimal (isNegative x) d = x := by
  have hE : biased x < topExponent := biased_lt_of_isFinite hx
  have hf : fraction x < exponentWeight := Nat.mod_lt _ (by decide)
  rw [magnitude_eq] at h
  rw [ofDecimal_of_attracts hE hf h, ← toNat_toBits, UInt64.ofNat_toNat, Float.ofBits_toBits]

/-- Whatever the layout, the text of a finite double is a numeral that is read as the double. -/
theorem exists_numeral (l : Layout) {x : Float} (hx : x.isFinite = true) :
    ∃ text literal, l.finite? x = some text ∧ Literal.Numeral text.toList literal ∧
      Scalar.ofLiteral literal = x := by
  obtain ⟨d, hmag, hvalue⟩ := l.exists_magnitude_unsigned
    (Decimal.exponent_normalize_of_digits_eq_zero _)
  have hattracts : (magnitude x).Attracts d.value := by
    rw [hvalue]
    exact Shortest.attracts_digits l.tie (magnitude x)
  refine ⟨_, ⟨isNegative x, d⟩, if_neg (biased_ne_of_isFinite hx), ?_,
    ofDecimal_eq_self hx hattracts⟩
  rw [String.toList_ofList]
  exact hmag.numeral (isNegative x)

theorem ofText_render {x : Float} (hx : x.isFinite = true) :
    Scalar.ofText (Layout.field.render x) = x := by
  obtain ⟨text, literal, htext, hnumeral, hliteral⟩ := exists_numeral .field hx
  have hrender : Layout.field.render x = text := by
    rw [Layout.render, htext]
  rw [hrender, Scalar.ofText, Text.trim_of_not_blank hnumeral.not_blank, hnumeral.read?]
  change Scalar.finiteOrZero (Scalar.ofLiteral literal) = x
  rw [hliteral]
  exact if_pos hx

theorem beq_self {x : Float} (hx : x.isFinite = true) : (x == x) = true := by
  rw [Float.beq_self_iff]
  rintro rfl
  exact absurd hx (by decide)

/-- Adding zero changes a finite double only where it is a negative zero. -/
theorem add_zero_cases {x : Float} (hx : x.isFinite = true) :
    x + 0.0 = x ∨ x = -0.0 ∧ x + 0.0 = 0.0 := by
  have hself : Float.ofModel (Float.Model.pack x.toModel.unpack) = x := Float.ofBits_toBits x
  have hfinite : x.toModel.unpack.isFinite = true := hx
  have hadd : x + 0.0 = Float.ofModel (Float.Model.pack
      (Float.Model.UnpackedFloat.add .binary64 x.toModel.unpack (.zero .positive))) := rfl
  rw [hadd]
  cases hunpack : x.toModel.unpack with
  | notANumber =>
    rw [hunpack] at hfinite
    exact absurd hfinite Bool.false_ne_true
  | infinity sign =>
    rw [hunpack] at hfinite
    exact absurd hfinite Bool.false_ne_true
  | zero sign =>
    rw [hunpack] at hself
    cases sign with
    | positive => exact Or.inl hself
    | negative => exact Or.inr ⟨hself.symm, rfl⟩
  | finite sign mantissa exponent hpos =>
    rw [hunpack] at hself
    exact Or.inl hself

/-- The text shown in a field for a finite double reads as a double that compares equal to it. -/
theorem ofText_fieldText {x : Float} (hx : x.isFinite = true) :
    (Scalar.ofText (Scalar.fieldText x) == x) = true := by
  have htext : Scalar.fieldText x = Layout.field.render (x + 0.0) := rfl
  rw [htext]
  rcases add_zero_cases hx with hzero | ⟨rfl, hzero⟩
  · rw [hzero, ofText_render hx]
    exact beq_self hx
  · rw [hzero, ofText_render (by rfl)]
    rfl

end Double

end PlotPane
