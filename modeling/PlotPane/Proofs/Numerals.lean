import Mathlib.Data.List.TakeWhile
import PlotPane.Number.Layout
import PlotPane.Number.Literal
import PlotPane.Proofs.Nearest

/-!
# Numerals

The number texts that everything here agrees on: a whole part with no needless zero in front, a
fraction, an exponent, and a minus sign before it all. A numeral is read as the decimal number that
it spells, and every layout of digits is a numeral of the same value.
-/

namespace PlotPane

namespace Literal

structure Digits (cs : List Char) : Prop where
  ne_nil : cs ≠ []
  isDigit : ∀ c ∈ cs, c.isDigit = true

/-- The digits before the point, with no needless zero in front. -/
inductive Whole : List Char → Prop
  | zero : Whole ['0']
  | digits {d : Char} {ds : List Char} (hds : ∀ c ∈ d :: ds, c.isDigit = true) (hne : d ≠ '0') :
      Whole (d :: ds)

/-- The point with the digits after it, or nothing. -/
inductive Fraction : List Char → List Char → Prop
  | absent : Fraction [] []
  | digits {ds : List Char} (hds : Digits ds) : Fraction ('.' :: ds) ds

/-- The exponent with its value, or nothing. -/
inductive Exponent : List Char → ℤ → Prop
  | absent : Exponent [] 0
  | unsigned {e : Char} {ds : List Char} (he : e = 'e' ∨ e = 'E') (hds : Digits ds) :
      Exponent (e :: ds) (digitsValue ds)
  | plus {e : Char} {ds : List Char} (he : e = 'e' ∨ e = 'E') (hds : Digits ds) :
      Exponent (e :: '+' :: ds) (digitsValue ds)
  | minus {e : Char} {ds : List Char} (he : e = 'e' ∨ e = 'E') (hds : Digits ds) :
      Exponent (e :: '-' :: ds) (-(digitsValue ds : ℤ))

/-- A numeral without a sign, and the decimal number that it spells. -/
inductive Magnitude : List Char → Decimal → Prop
  | parts {ws fs ds es : List Char} {e : ℤ} (hws : Whole ws) (hfs : Fraction fs ds)
      (hes : Exponent es e) :
      Magnitude (ws ++ (fs ++ es)) ⟨digitsValue (ws ++ ds), e - (ds.length : ℤ)⟩

inductive Numeral : List Char → Literal → Prop
  | unsigned {cs : List Char} {d : Decimal} (h : Magnitude cs d) : Numeral cs ⟨false, d⟩
  | minus {cs : List Char} {d : Decimal} (h : Magnitude cs d) : Numeral ('-' :: cs) ⟨true, d⟩

theorem Digits.head {cs : List Char} (h : Digits cs) : ∃ d ds, cs = d :: ds ∧ d.isDigit = true := by
  obtain ⟨d, ds, rfl⟩ := List.exists_cons_of_ne_nil h.ne_nil
  exact ⟨d, ds, rfl, h.isDigit d List.mem_cons_self⟩

theorem Digits.take {cs : List Char} (h : Digits cs) {k : ℕ} (hk : k ≠ 0) : Digits (cs.take k) where
  ne_nil := by simp [List.take_eq_nil_iff, hk, h.ne_nil]
  isDigit c hc := h.isDigit c (List.mem_of_mem_take hc)

theorem Digits.drop {cs : List Char} (h : Digits cs) {k : ℕ} (hk : k < cs.length) :
    Digits (cs.drop k) where
  ne_nil := by simp [hk]
  isDigit c hc := h.isDigit c (List.mem_of_mem_drop hc)

theorem Whole.toDigits {cs : List Char} (h : Whole cs) : Digits cs := by
  cases h with
  | zero => exact ⟨List.cons_ne_nil _ _, List.forall_mem_singleton.mpr rfl⟩
  | digits hds _ => exact ⟨List.cons_ne_nil _ _, hds⟩

theorem Magnitude.head {cs : List Char} {d : Decimal} (h : Magnitude cs d) :
    ∃ c rest, cs = c :: rest ∧ c.isDigit = true := by
  cases h with
  | parts hws hfs hes =>
    obtain ⟨c, ws, rfl, hc⟩ := hws.toDigits.head
    exact ⟨c, _, List.cons_append, hc⟩

theorem Whole.magnitude {ws : List Char} (h : Whole ws) : Magnitude ws ⟨digitsValue ws, 0⟩ := by
  simpa using Magnitude.parts h .absent .absent

theorem Whole.magnitude_point {ws ds : List Char} (h : Whole ws) (hds : Digits ds) :
    Magnitude (ws ++ '.' :: ds) ⟨digitsValue (ws ++ ds), -(ds.length : ℤ)⟩ := by
  simpa using Magnitude.parts h (.digits hds) .absent

/-! Reading -/

theorem takeSign_of_isDigit {c : Char} (h : c.isDigit = true) (cs : List Char) :
    takeSign (c :: cs) = (false, c :: cs) := by
  unfold takeSign
  split
  · rename_i hcs
    cases hcs
    exact absurd h (by decide)
  · rename_i hcs
    cases hcs
    exact absurd h (by decide)
  · rfl

theorem Exponent.exponent? {es : List Char} {e : ℤ} (h : Exponent es e) :
    exponent? es = some e := by
  cases h with
  | absent => rfl
  | @unsigned _ ds he hds =>
    have hsign : takeSign ds = (false, ds) := by
      obtain ⟨d, ds, rfl, hd⟩ := hds.head
      exact takeSign_of_isDigit hd ds
    simpa [Literal.exponent?, he, hsign, hds.ne_nil] using hds.isDigit
  | plus he hds => simpa [Literal.exponent?, takeSign, he, hds.ne_nil] using hds.isDigit
  | minus he hds => simpa [Literal.exponent?, takeSign, he, hds.ne_nil] using hds.isDigit

section

variable {ws fs ds es : List Char} {e : ℤ}

/-! What comes after a run of digits never begins with a digit, so the runs come apart again. -/

theorem Exponent.span (h : Exponent es e) :
    es.takeWhile Char.isDigit = [] ∧ es.dropWhile Char.isDigit = es := by
  have hmark {c : Char} (hc : c = 'e' ∨ c = 'E') : c.isDigit = false := by
    rcases hc with rfl | rfl <;> rfl
  cases h with
  | absent => exact ⟨rfl, rfl⟩
  | unsigned he hds => simp [hmark he]
  | plus he hds => simp [hmark he]
  | minus he hds => simp [hmark he]

theorem Digits.span (hds : Digits ds) (hes : Exponent es e) :
    (ds ++ es).takeWhile Char.isDigit = ds ∧ (ds ++ es).dropWhile Char.isDigit = es := by
  rw [List.takeWhile_append_of_pos hds.isDigit, List.dropWhile_append_of_pos hds.isDigit,
    hes.span.1, hes.span.2, List.append_nil]
  exact ⟨rfl, rfl⟩

theorem Whole.span (hws : Whole ws) (hfs : Fraction fs ds) (hes : Exponent es e) :
    (ws ++ (fs ++ es)).takeWhile Char.isDigit = ws ∧
      (ws ++ (fs ++ es)).dropWhile Char.isDigit = fs ++ es := by
  cases hfs with
  | absent => exact hws.toDigits.span hes
  | digits hds =>
    rw [List.takeWhile_append_of_pos hws.toDigits.isDigit,
      List.dropWhile_append_of_pos hws.toDigits.isDigit]
    exact ⟨List.append_nil ws, rfl⟩

theorem Fraction.takeFraction (hfs : Fraction fs ds) (hes : Exponent es e) :
    takeFraction (fs ++ es) = (ds, es) := by
  cases hfs with
  | absent =>
    cases hes with
    | absent => rfl
    | unsigned he _ => rcases he with rfl | rfl <;> rfl
    | plus he _ => rcases he with rfl | rfl <;> rfl
    | minus he _ => rcases he with rfl | rfl <;> rfl
  | digits hds =>
    rw [List.cons_append, Literal.takeFraction, (hds.span hes).1, (hds.span hes).2]

end

/-- A numeral is read as what it spells. -/
theorem Numeral.read? {cs : List Char} {l : Literal} (h : Numeral cs l) : read? cs = some l := by
  have hread {negative : Bool} {cs body : List Char} {d : Decimal}
      (hsign : takeSign cs = (negative, body)) (h : Magnitude body d) :
      Literal.read? cs = some ⟨negative, d⟩ := by
    cases h with
    | parts hws hfs hes =>
      simp only [Literal.read?, hsign, (hws.span hfs hes).1, (hws.span hfs hes).2,
        hfs.takeFraction hes, hws.toDigits.ne_nil, false_and, if_false, hes.exponent?,
        Option.map_some]
  cases h with
  | unsigned h =>
    obtain ⟨c, rest, rfl, hc⟩ := h.head
    exact hread (takeSign_of_isDigit hc rest) h
  | minus h => exact hread rfl h

theorem Numeral.ne_nil {cs : List Char} {l : Literal} (h : Numeral cs l) : cs ≠ [] := by
  cases h with
  | unsigned h =>
    obtain ⟨c, rest, rfl, -⟩ := h.head
    exact List.cons_ne_nil c rest
  | minus h => exact List.cons_ne_nil _ _

/-- A character that can stand in a numeral. -/
def IsMark (c : Char) : Prop :=
  c.isDigit = true ∨ c ∈ ['-', '+', '.', 'e', 'E']

theorem Digits.isMark {cs : List Char} (h : Digits cs) : ∀ c ∈ cs, IsMark c :=
  fun c hc => .inl (h.isDigit c hc)

theorem Exponent.isMark {es : List Char} {e : ℤ} (h : Exponent es e) : ∀ c ∈ es, IsMark c := by
  have hmark {c : Char} (hc : c = 'e' ∨ c = 'E') : IsMark c := by
    rcases hc with rfl | rfl <;> exact .inr (by decide)
  have hplus : IsMark '+' := .inr (by decide)
  have hminus : IsMark '-' := .inr (by decide)
  cases h with
  | absent => exact List.forall_mem_nil _
  | unsigned he hds => exact List.forall_mem_cons.mpr ⟨hmark he, hds.isMark⟩
  | plus he hds =>
    have hrest := List.forall_mem_cons.mpr ⟨hplus, hds.isMark⟩
    exact List.forall_mem_cons.mpr ⟨hmark he, hrest⟩
  | minus he hds =>
    have hrest := List.forall_mem_cons.mpr ⟨hminus, hds.isMark⟩
    exact List.forall_mem_cons.mpr ⟨hmark he, hrest⟩

theorem Magnitude.isMark {cs : List Char} {d : Decimal} (h : Magnitude cs d) :
    ∀ c ∈ cs, IsMark c := by
  cases h with
  | parts hws hfs hes =>
    simp only [List.forall_mem_append]
    refine ⟨hws.toDigits.isMark, ?_, hes.isMark⟩
    cases hfs with
    | absent => exact List.forall_mem_nil _
    | digits hds => exact List.forall_mem_cons.mpr ⟨.inr (by decide), hds.isMark⟩

theorem Numeral.isMark {cs : List Char} {l : Literal} (h : Numeral cs l) : ∀ c ∈ cs, IsMark c := by
  cases h with
  | unsigned h => exact h.isMark
  | minus h => exact List.forall_mem_cons.mpr ⟨.inr (by decide), h.isMark⟩

theorem Magnitude.numeral {cs : List Char} {d : Decimal} (h : Magnitude cs d) (negative : Bool) :
    Numeral (if negative then '-' :: cs else cs) ⟨negative, d⟩ := by
  cases negative with
  | false => exact .unsigned h
  | true => exact .minus h

end Literal

/-! Writing -/

namespace Layout

open Literal

theorem digitsValue_eq (cs : List Char) : digitsValue cs = Nat.ofDigitChars 10 cs 0 := rfl

theorem digitsValue_decimalChars (n : ℕ) : digitsValue (decimalChars n) = n :=
  Nat.ofDigitChars_ten_toDigits

theorem digitsValue_append (cs ds : List Char) :
    digitsValue (cs ++ ds) = 10 ^ ds.length * digitsValue cs + digitsValue ds := by
  simp only [digitsValue_eq]
  rw [Nat.ofDigitChars_append, Nat.ofDigitChars_eq_ofDigitChars_zero]

theorem digitsValue_zeros (n : ℕ) : digitsValue (zeros n) = 0 := by
  rw [digitsValue_eq, zeros, Nat.ofDigitChars_replicate_zero, Nat.mul_zero]

theorem isDigit_zeros {n : ℕ} {c : Char} (h : c ∈ zeros n) : c.isDigit = true := by
  rw [List.eq_of_mem_replicate h]
  rfl

theorem digits_decimalChars (n : ℕ) : Digits (decimalChars n) where
  ne_nil := Nat.toDigits_ne_nil
  isDigit _ hc := Nat.isDigit_of_mem_toDigits (by decide) (by decide) hc

/-- The first digit of a number is not zero, unless the number is. -/
theorem head_decimalChars {n : ℕ} (hn : n ≠ 0) :
    ∃ d ds, decimalChars n = d :: ds ∧ d ≠ '0' := by
  induction n using Nat.strongRecOn with
  | ind n ih =>
    rw [decimalChars]
    by_cases hlt : n < 10
    · rw [Nat.toDigits_of_lt_base hlt]
      exact ⟨_, _, rfl, mt Nat.digitChar_eq_zero.mp hn⟩
    · obtain ⟨d, ds, heq, hd⟩ := ih (n / 10) (by omega) (by omega)
      rw [Nat.toDigits_of_base_le (by decide) (by omega), ← decimalChars, heq]
      exact ⟨d, _, List.cons_append, hd⟩

/-- A text that begins with the digits of a number that is not zero can be a whole part. -/
theorem whole_of_prefix {n : ℕ} (hn : n ≠ 0) {cs : List Char} (hcs : Digits cs)
    (hhead : cs.head? = (decimalChars n).head?) : Whole cs := by
  obtain ⟨d, ds, heq, hd⟩ := head_decimalChars hn
  obtain ⟨c, cs, rfl⟩ := List.exists_cons_of_ne_nil hcs.ne_nil
  rw [heq, List.head?_cons, List.head?_cons, Option.some.injEq] at hhead
  exact .digits hcs.isDigit (hhead ▸ hd)

theorem whole_decimalChars (n : ℕ) : Whole (decimalChars n) := by
  by_cases hn : n = 0
  · rw [hn]
    exact .zero
  · exact whole_of_prefix hn (digits_decimalChars n) rfl

theorem whole_append_zeros {n k : ℕ} (h : n = 0 → k = 0) : Whole (decimalChars n ++ zeros k) := by
  by_cases hn : n = 0
  · rw [h hn, hn]
    exact .zero
  · have hdigits := digits_decimalChars n
    refine whole_of_prefix hn ⟨List.append_ne_nil_of_left_ne_nil hdigits.ne_nil _, ?_⟩ ?_
    · intro c hc
      rcases List.mem_append.mp hc with hc | hc
      · exact hdigits.isDigit c hc
      · exact isDigit_zeros hc
    · rw [List.head?_append_of_ne_nil _ hdigits.ne_nil]

theorem whole_take {n k : ℕ} (hn : n ≠ 0) (hk : k ≠ 0) : Whole ((decimalChars n).take k) := by
  apply whole_of_prefix hn ((digits_decimalChars n).take hk)
  rw [List.head?_take, if_neg hk]

theorem digitsValue_append_zeros (n k : ℕ) :
    digitsValue (decimalChars n ++ zeros k) = 10 ^ k * n := by
  rw [digitsValue_append, digitsValue_zeros, digitsValue_decimalChars, zeros,
    List.length_replicate, Nat.add_zero]

/-- Fewer places than digits: the point stands among the digits. -/
theorem magnitude_point_among {n k : ℕ} (hn : n ≠ 0) (hk : k ≠ 0)
    (hlt : k < (decimalChars n).length) :
    Magnitude ((decimalChars n).take ((decimalChars n).length - k) ++
      '.' :: (decimalChars n).drop ((decimalChars n).length - k)) ⟨n, -(k : ℤ)⟩ := by
  have hlength : ((decimalChars n).drop ((decimalChars n).length - k)).length = k := by
    rw [List.length_drop]
    omega
  have hwhole : Whole ((decimalChars n).take ((decimalChars n).length - k)) :=
    whole_take hn (by omega)
  have hfraction := (digits_decimalChars n).drop (k := (decimalChars n).length - k) (by omega)
  have hpoint := hwhole.magnitude_point hfraction
  rwa [List.take_append_drop, digitsValue_decimalChars, hlength] at hpoint

/-- No fewer places than digits: the point stands before the digits. -/
theorem magnitude_point_before {n k : ℕ} (hle : (decimalChars n).length ≤ k) :
    Magnitude ('0' :: '.' :: (zeros (k - (decimalChars n).length) ++ decimalChars n))
      ⟨n, -(k : ℤ)⟩ := by
  have hdigits := digits_decimalChars n
  have hlength : (zeros (k - (decimalChars n).length) ++ decimalChars n).length = k := by
    rw [List.length_append, zeros, List.length_replicate]
    omega
  have hfraction : Digits (zeros (k - (decimalChars n).length) ++ decimalChars n) := by
    refine ⟨List.append_ne_nil_of_right_ne_nil _ hdigits.ne_nil, ?_⟩
    intro c hc
    rcases List.mem_append.mp hc with hc | hc
    · exact isDigit_zeros hc
    · exact hdigits.isDigit c hc
  have hpoint := Whole.zero.magnitude_point hfraction
  rw [digitsValue_append, digitsValue_append, digitsValue_zeros, digitsValue_decimalChars,
    hlength] at hpoint
  simpa [digitsValue] using hpoint

/-- Digits with the point in its place are a numeral of the same value. -/
theorem exists_magnitude_plain (l : Layout) {d : Decimal} (hd : d.digits = 0 → d.exponent = 0) :
    ∃ d', Magnitude (l.plain d) d' ∧ d'.value = d.value := by
  simp only [plain]
  split
  · rename_i hexp
    obtain ⟨n, hn⟩ := Int.eq_ofNat_of_zero_le hexp
    have hwhole : Whole (decimalChars d.digits ++ zeros d.exponent.toNat) :=
      whole_append_zeros fun h => by rw [hd h]; rfl
    split
    · have htenth : Digits ['0'] := ⟨List.cons_ne_nil _ _, List.forall_mem_singleton.mpr rfl⟩
      refine ⟨_, hwhole.magnitude_point htenth, ?_⟩
      rw [digitsValue_append, digitsValue_append_zeros, hn, Int.toNat_natCast]
      simp [Decimal.value, hn, digitsValue]
      ring
    · rw [List.append_nil]
      refine ⟨_, hwhole.magnitude, ?_⟩
      rw [digitsValue_append_zeros, hn, Int.toNat_natCast]
      simp [Decimal.value, hn, mul_comm]
  · rename_i hexp
    have hplaces : -((-d.exponent).toNat : ℤ) = d.exponent := by omega
    refine ⟨d, ?_, rfl⟩
    split
    · have hmag := magnitude_point_among (n := d.digits) (k := (-d.exponent).toNat)
        (fun h => hexp (hd h).ge) (by omega) ‹_›
      rwa [hplaces] at hmag
    · have hmag := magnitude_point_before (n := d.digits) (k := (-d.exponent).toNat) (by omega)
      rwa [hplaces] at hmag

theorem exponent_lead (l : Layout) (lead : ℤ) :
    Exponent ('e' :: ((if lead < 0 then ['-'] else if l.exponentPlus then ['+'] else []) ++
      decimalChars lead.natAbs)) lead := by
  have hdigits := digits_decimalChars lead.natAbs
  have hvalue := digitsValue_decimalChars lead.natAbs
  split
  · have hminus := Exponent.minus (.inl rfl) hdigits
    rwa [hvalue, show -(lead.natAbs : ℤ) = lead by omega] at hminus
  · have hlead : (lead.natAbs : ℤ) = lead := by omega
    split
    · have hplus := Exponent.plus (.inl rfl) hdigits
      rwa [hvalue, hlead] at hplus
    · have hunsigned := Exponent.unsigned (.inl rfl) hdigits
      rwa [hvalue, hlead] at hunsigned

/-- One digit before the point, and the exponent that it has in the number. -/
theorem magnitude_scientific (l : Layout) (d : Decimal) :
    Magnitude (l.scientific d ((Decimal.digitCount d.digits : ℤ) - 1 + d.exponent)) d := by
  have hdigits := digits_decimalChars d.digits
  have hcount : Decimal.digitCount d.digits = (decimalChars d.digits).length := rfl
  have hpos : 0 < (decimalChars d.digits).length := List.length_pos_of_ne_nil hdigits.ne_nil
  have hwhole : Whole ((decimalChars d.digits).take 1) := by
    by_cases hzero : d.digits = 0
    · rw [hzero]
      exact .zero
    · exact whole_take hzero one_ne_zero
  have hfraction : Fraction (if (decimalChars d.digits).length ≤ 1 then []
      else '.' :: (decimalChars d.digits).drop 1) ((decimalChars d.digits).drop 1) := by
    split
    · rename_i hone
      rw [List.drop_eq_nil_of_le hone]
      exact .absent
    · exact .digits (hdigits.drop (by omega))
  have hmag := Magnitude.parts hwhole hfraction
    (l.exponent_lead ((Decimal.digitCount d.digits : ℤ) - 1 + d.exponent))
  have hexp : (Decimal.digitCount d.digits : ℤ) - 1 + d.exponent -
      ((decimalChars d.digits).drop 1).length = d.exponent := by
    rw [List.length_drop, hcount]
    omega
  rw [List.take_append_drop, digitsValue_decimalChars, hexp] at hmag
  rw [scientific, List.append_assoc]
  exact hmag

/-- Every layout of digits is a numeral of the same value. -/
theorem exists_magnitude_unsigned (l : Layout) {d : Decimal} (hd : d.digits = 0 → d.exponent = 0) :
    ∃ d', Magnitude (l.unsigned d) d' ∧ d'.value = d.value := by
  rw [unsigned]
  split
  · exact l.exists_magnitude_plain hd
  · split
    · exact l.exists_magnitude_plain hd
    · exact ⟨d, l.magnitude_scientific d, rfl⟩

end Layout

end PlotPane
