import PlotPane.Json.Record
import PlotPane.Proofs.Grammar
import PlotPane.Proofs.ReadBack

/-!
# Written values

The text of a value is grammatical and was written for that value, as long as its numbers are
numerals. A string literal stands for its text whatever characters that holds: a character is either
written as it is or escaped, and the escapes of one text never run into each other or into the quote
at the end. The numbers that are written are numerals, and they are read back as they were.
-/

namespace PlotPane.Json

/-! Strings -/

/-- The three ways to write a character: by a short escape, by its number, and as it is. -/
theorem escaped_cases (c : Char) :
    (∃ e, (e, c) ∈ shortEscapes ∧ escaped c = ['\\', e]) ∨
    (c.toNat < 0x20 ∧ escaped c =
      ['\\', 'u', '0', '0', Nat.digitChar (c.toNat / 16), Nat.digitChar (c.toNat % 16)]) ∨
    (0x20 ≤ c.toNat ∧ c ≠ '"' ∧ c ≠ '\\' ∧ escaped c = [c]) := by
  have hshort {e d : Char} (hmem : (e, d) ∈ shortEscapes) (hc : c = d) : (e, c) ∈ shortEscapes := by
    rwa [hc]
  unfold escaped
  split_ifs with hquote hslash hb hf hn hr ht hlow
  · exact .inl ⟨'"', hshort (by decide) hquote, rfl⟩
  · exact .inl ⟨'\\', hshort (by decide) hslash, rfl⟩
  · exact .inl ⟨'b', hshort (by decide) hb, rfl⟩
  · exact .inl ⟨'f', hshort (by decide) hf, rfl⟩
  · exact .inl ⟨'n', hshort (by decide) hn, rfl⟩
  · exact .inl ⟨'r', hshort (by decide) hr, rfl⟩
  · exact .inl ⟨'t', hshort (by decide) ht, rfl⟩
  · exact .inr (.inl ⟨hlow, rfl⟩)
  · exact .inr (.inr ⟨Nat.not_lt.mp hlow, hquote, hslash, rfl⟩)

theorem hexValue?_digitChar {n : ℕ} (hn : n < 16) : hexValue? (Nat.digitChar n) = some n := by
  have hall : ∀ m < 16, hexValue? (Nat.digitChar m) = some m := by decide
  exact hall n hn

theorem joinPieces_unit {n : ℕ} (hn : n < 0x20) (ps : List Piece) :
    joinPieces (.unit n :: ps) = (joinPieces ps).map (Char.ofNat n :: ·) := by
  have hhigh : isHighHalf n = false := by
    simp only [isHighHalf, Bool.and_eq_false_iff, decide_eq_false_iff_not]
    omega
  have hlow : isLowHalf n = false := by
    simp only [isLowHalf, Bool.and_eq_false_iff, decide_eq_false_iff_not]
    omega
  conv_lhs => unfold joinPieces
  simp only [hhigh, hlow, Bool.false_eq_true, if_false]

/-- A written character is a piece that adds this character to a text. -/
theorem exists_spelled_escaped (c : Char) :
    ∃ p, Spelled (escaped c) p ∧ ∀ ps, joinPieces (p :: ps) = (joinPieces ps).map (c :: ·) := by
  rcases escaped_cases c with ⟨e, he, htext⟩ | ⟨hlow, htext⟩ | ⟨hlow, hquote, hslash, htext⟩
  · rw [htext]
    exact ⟨_, .short he, fun _ => rfl⟩
  · have hzero := hexValue?_digitChar (by decide : 0 < 16)
    have hunit := Spelled.unit hzero hzero (hexValue?_digitChar (by omega : c.toNat / 16 < 16))
      (hexValue?_digitChar (by omega : c.toNat % 16 < 16))
    have hnumber : 16 * (16 * (16 * 0 + 0) + c.toNat / 16) + c.toNat % 16 = c.toNat := by omega
    rw [hnumber] at hunit
    rw [htext]
    refine ⟨_, hunit, fun ps => ?_⟩
    rw [joinPieces_unit hlow, Char.ofNat_toNat]
  · rw [htext]
    exact ⟨_, .plain hlow hquote hslash, fun _ => rfl⟩

theorem exists_spelling_escaped (cs : List Char) :
    ∃ ps, Spelling (cs.flatMap escaped) ps ∧ joinPieces ps = some cs := by
  induction cs with
  | nil => exact ⟨[], .nil, rfl⟩
  | cons c cs ih =>
    obtain ⟨p, hp, hjoin⟩ := exists_spelled_escaped c
    obtain ⟨ps, hps, htext⟩ := ih
    refine ⟨p :: ps, .cons hp hps, ?_⟩
    rw [hjoin, htext, Option.map_some]

theorem quotes_quoted (s : Option String) : Quotes (quoted s) s := by
  cases s with
  | none =>
    have hhalf : Spelled ['\\', 'u', 'd', '8', '0', '0'] (.unit 0xD800) :=
      .unit (i := 13) (j := 8) (k := 0) (l := 0) rfl rfl rfl rfl
    exact Quotes.between (.cons hhalf .nil)
  | some s =>
    obtain ⟨ps, hps, htext⟩ := exists_spelling_escaped s.toList
    have hquotes := Quotes.between hps
    rwa [htext, Option.map_some, String.ofList_toList] at hquotes

/-! Values -/

/-- All numbers in a value are numerals. -/
inductive Proper : Json → Prop
  | null : Proper .null
  | bool (b : Bool) : Proper (.bool b)
  | num {literal : String} {l : Literal} (h : Literal.Numeral literal.toList l) :
      Proper (.num literal)
  | str (s : Option String) : Proper (.str s)
  | arr {vs : List Json} (h : ∀ v ∈ vs, Proper v) : Proper (.arr vs)
  | obj {ms : List (Option String × Json)} (h : ∀ m ∈ ms, Proper m.2) : Proper (.obj ms)

theorem blanks_nil : Blanks [] :=
  List.forall_mem_nil _

theorem Written.unpadded {cs : List Char} {v : Json} (h : Written cs (.value v)) :
    Written cs (.padded v) := by
  have hpadded := Written.padded blanks_nil h blanks_nil
  rwa [List.append_nil, List.nil_append] at hpadded

theorem written_itemChars {v : Json} {vs : List Json}
    (h : ∀ w ∈ v :: vs, Written w.chars (.value w)) :
    Written (itemChars (v :: vs)) (.items (v :: vs)) := by
  induction vs generalizing v with
  | nil => exact .item (h v List.mem_cons_self).unpadded
  | cons w vs ih =>
    obtain ⟨hv, hvs⟩ := List.forall_mem_cons.mp h
    exact .items hv.unpadded (ih hvs)

theorem written_member {k : Option String} {v : Json} (h : Written v.chars (.value v)) :
    Written (quoted k ++ ':' :: v.chars) (.member k v) :=
  .member blanks_nil (quotes_quoted k) blanks_nil h.unpadded

theorem written_memberChars {m : Option String × Json} {ms : List (Option String × Json)}
    (h : ∀ n ∈ m :: ms, Written n.2.chars (.value n.2)) :
    Written (memberChars (m :: ms)) (.members (m :: ms)) := by
  induction ms generalizing m with
  | nil => exact .lastMember (written_member (h m List.mem_cons_self))
  | cons n ms ih =>
    obtain ⟨hm, hms⟩ := List.forall_mem_cons.mp h
    have hall := Written.members (written_member (k := m.1) hm) (ih hms)
    rwa [List.append_assoc] at hall

theorem Proper.written {v : Json} (h : v.Proper) : Written v.chars (.value v) := by
  induction h with
  | null => exact .null
  | bool b =>
    cases b with
    | false => exact .isFalse
    | true => exact .isTrue
  | @num literal l h =>
    have hnumber := Written.number h
    rwa [String.ofList_toList] at hnumber
  | str s => exact .string (quotes_quoted s)
  | @arr vs _ ih =>
    cases vs with
    | nil => exact .emptyArray blanks_nil
    | cons v vs => exact .array (written_itemChars ih)
  | @obj ms _ ih =>
    cases ms with
    | nil => exact .emptyObject blanks_nil
    | cons m ms => exact .object (written_memberChars ih)

/-- The text of a value is one of the grammar, and denotes that value. -/
theorem Proper.denotes {v : Json} (h : v.Proper) : Denotes v.render v := by
  rw [Denotes, render, String.toList_ofList]
  exact h.written.unpadded

theorem Proper.denotes_of_render {v : Json} {s : String} (h : v.Proper) (hs : v.render = s) :
    Denotes s v :=
  hs ▸ h.denotes

/-! Numbers -/

theorem toList_toString (n : ℕ) : (toString n).toList = Layout.decimalChars n :=
  Nat.toList_repr

theorem proper_ofNat (n : ℕ) : (ofNat n).Proper := by
  apply Proper.num (l := ⟨false, ⟨Literal.digitsValue (Layout.decimalChars n), 0⟩⟩)
  rw [toList_toString]
  exact .unsigned (Layout.whole_decimalChars n).magnitude

theorem word?_ofNat {n : ℕ} (hn : n < UInt32.size) : word? (ofNat n) = some (UInt32.ofNat n) := by
  rw [ofNat, word?, toList_toString, isDigits_of_digits (Layout.digits_decimalChars n),
    Layout.digitsValue_decimalChars, decide_eq_true hn]
  rfl

/-- A finite number is written as a numeral that stands for it. -/
theorem exists_ofScalar_eq {x : Float} (hx : Scalar.isFinite x = true) :
    ∃ literal l, ofScalar x = .num literal ∧ Literal.Numeral literal.toList l ∧
      Scalar.ofLiteral l = x := by
  obtain ⟨literal, l, htext, hnumeral, hvalue⟩ := Double.exists_numeral .json hx
  have hjson : Scalar.json? x = some literal := htext
  refine ⟨literal, l, ?_, hnumeral, hvalue⟩
  rw [ofScalar, hjson]

theorem proper_ofScalar {x : Float} (hx : Scalar.isFinite x = true) : (ofScalar x).Proper := by
  obtain ⟨literal, l, heq, hnumeral, -⟩ := exists_ofScalar_eq hx
  rw [heq]
  exact .num hnumeral

theorem number?_ofScalar {x : Float} (hx : Scalar.isFinite x = true) :
    number? (ofScalar x) = some x := by
  obtain ⟨literal, l, heq, hnumeral, hvalue⟩ := exists_ofScalar_eq hx
  rw [heq, number?, hnumeral.read?, Option.bind_some, hvalue]
  exact if_pos hx

end PlotPane.Json
