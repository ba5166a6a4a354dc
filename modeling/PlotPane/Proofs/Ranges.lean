import PlotPane.Proofs.Alterations
import PlotPane.Proofs.Doubles
import PlotPane.Proofs.FieldTexts

/-!
# Sliders keep to their range

The ends of a range may be typed in either order, and the number of a slider may be typed outside.
The thumb sits at the nearest number in the range, and a slide stores such a number. All numbers are
finite, so the order of the doubles is total among them, and a clamped double has the place that
clamping its place gives. Only a slide and a typed value change the number: the range does not.
-/

namespace PlotPane

namespace Double

open Float.Model

section

variable {x y : Float} (hx : x.isFinite = true) (hy : y.isFinite = true)

include hx hy

theorem place_larger :
    place (Scalar.larger x y).toModel.unpack =
      max (place x.toModel.unpack) (place y.toModel.unpack) := by
  have hlt : x < y ↔ _ := lt_iff_place_lt (canonical_of_isFinite hx) (canonical_of_isFinite hy)
  rw [Scalar.larger]
  split
  · next h =>
      have hplace := hlt.mp h
      omega
  · next h =>
      have hplace := mt hlt.mpr h
      omega

theorem place_smaller :
    place (Scalar.smaller x y).toModel.unpack =
      min (place x.toModel.unpack) (place y.toModel.unpack) := by
  have hlt : y < x ↔ _ := lt_iff_place_lt (canonical_of_isFinite hy) (canonical_of_isFinite hx)
  rw [Scalar.smaller]
  split
  · next h =>
      have hplace := hlt.mp h
      omega
  · next h =>
      have hplace := mt hlt.mpr h
      omega

end

/-- No comparison with NaN holds. -/
theorem canonical_of_le {x y : Float} (h : x ≤ y) : Canonical y.toModel.unpack := by
  have hle : x.toModel.unpack.le y.toModel.unpack = true := decide_eq_true_iff.mp h
  have hnone (u : UnpackedFloat) : u.le .notANumber = false := by
    cases u <;> rfl
  by_cases htop : biased y = topExponent
  · by_cases hfraction : fraction y = 0
    · rw [unpack_eq, if_pos htop, if_pos hfraction]
      trivial
    · rw [unpack_eq y, if_pos htop, if_neg hfraction, hnone] at hle
      cases hle
  · rw [unpack_eq, if_neg htop]
    split
    · trivial
    · exact fits_magnitude htop

/-- What lies between finite doubles is finite. -/
theorem isFinite_of_between {x y z : Float} (hx : x.isFinite = true) (hz : z.isFinite = true)
    (hxy : x ≤ y) (hyz : y ≤ z) : y.isFinite = true := by
  have hy := canonical_of_le hxy
  have hplace := (isFinite_iff_place (canonical_of_isFinite hx)).mp hx
  have hplace' := (isFinite_iff_place (canonical_of_isFinite hz)).mp hz
  rw [le_iff_place_le (canonical_of_isFinite hx) hy] at hxy
  rw [le_iff_place_le hy (canonical_of_isFinite hz)] at hyz
  rw [abs_lt] at hplace hplace'
  refine (isFinite_iff_place hy).mpr (abs_lt.mpr ?_)
  omega

end Double

namespace Slider

/-- The ends of the range come in either order. -/
def lower (s : Slider Float) : Float :=
  Min.min s.min s.max

def upper (s : Slider Float) : Float :=
  Max.max s.min s.max

/-- `y` is the number in the range that is nearest to `x`. -/
structure Nearest (s : Slider Float) (x y : Float) : Prop where
  ge : s.lower ≤ y
  le : y ≤ s.upper
  inside : s.lower ≤ x → x ≤ s.upper → y = x
  below : x < s.lower → y = s.lower
  above : s.upper < x → y = s.upper

theorem range_eq (s : Slider Float) : s.range = (s.lower, s.upper) := by
  rw [range]
  split
  · next h =>
      have hlower : s.lower = s.min := if_pos h
      have hupper : s.upper = s.max := if_pos h
      rw [hlower, hupper]
  · next h =>
      have hlower : s.lower = s.max := if_neg h
      have hupper : s.upper = s.min := if_neg h
      rw [hlower, hupper]

section

open Double

variable {s : Slider Float} (hs : s.IsFinite)

include hs

theorem IsFinite.ends :
    s.lower.isFinite = true ∧ s.upper.isFinite = true ∧
      place s.lower.toModel.unpack ≤ place s.upper.toModel.unpack := by
  have hle : s.min ≤ s.max ↔ _ :=
    le_iff_place_le (canonical_of_isFinite hs.min) (canonical_of_isFinite hs.max)
  by_cases h : s.min ≤ s.max
  · have hlower : s.lower = s.min := if_pos h
    have hupper : s.upper = s.max := if_pos h
    rw [hlower, hupper]
    exact ⟨hs.min, hs.max, hle.mp h⟩
  · have hlower : s.lower = s.max := if_neg h
    have hupper : s.upper = s.min := if_neg h
    rw [hlower, hupper]
    have hplace := mt hle.mpr h
    exact ⟨hs.max, hs.min, by omega⟩

variable {x y : Float} (hx : x.isFinite = true)

include hx

theorem IsFinite.place_clamp :
    place (s.clamp x).toModel.unpack =
      Min.min (Max.max (place x.toModel.unpack) (place s.lower.toModel.unpack))
        (place s.upper.toModel.unpack) := by
  obtain ⟨hlower, hupper, -⟩ := hs.ends
  have hlarger : (Scalar.larger x s.lower).isFinite = true := by
    rcases Scalar.larger_cases x s.lower with heq | heq
    · rw [heq]
      exact hx
    · rw [heq]
      exact hlower
  rw [Slider.clamp, range_eq, place_smaller hlarger hupper, place_larger hx hlower]

theorem IsFinite.nearest_clamp : s.Nearest x (s.clamp x) := by
  obtain ⟨hlower, hupper, hends⟩ := hs.ends
  have hplace := hs.place_clamp hx
  have hclamp := canonical_of_isFinite (hs.clamp hx)
  have hnumber := canonical_of_isFinite hx
  have hlow := canonical_of_isFinite hlower
  have hhigh := canonical_of_isFinite hupper
  have hlt : x < s.lower ↔ _ := lt_iff_place_lt hnumber hlow
  have hgt : s.upper < x ↔ _ := lt_iff_place_lt hhigh hnumber
  have heq : s.clamp x = Scalar.smaller (Scalar.larger x s.lower) s.upper := by
    rw [Slider.clamp, range_eq]
  constructor
  · rw [le_iff_place_le hlow hclamp]
    omega
  · rw [le_iff_place_le hclamp hhigh]
    omega
  · intro hge hle
    rw [le_iff_place_le hlow hnumber] at hge
    rw [le_iff_place_le hnumber hhigh] at hle
    have hlarger : Scalar.larger x s.lower = x := if_neg (by rw [hlt]; omega)
    rw [heq, hlarger]
    exact if_neg (by rw [hgt]; omega)
  · intro hbelow
    have hlarger : Scalar.larger x s.lower = s.lower := if_pos hbelow
    rw [heq, hlarger]
    exact if_neg (by rw [lt_iff_place_lt hhigh hlow]; omega)
  · intro habove
    have hplaces := hgt.mp habove
    have hlarger : Scalar.larger x s.lower = x := if_neg (by rw [hlt]; omega)
    rw [heq, hlarger]
    exact if_pos habove

theorem IsFinite.clamp_le_clamp (hy : y.isFinite = true) (hxy : x ≤ y) : s.clamp x ≤ s.clamp y := by
  have hxc := canonical_of_isFinite (hs.clamp hx)
  have hyc := canonical_of_isFinite (hs.clamp hy)
  rw [le_iff_place_le (canonical_of_isFinite hx) (canonical_of_isFinite hy)] at hxy
  rw [le_iff_place_le hxc hyc, hs.place_clamp hx, hs.place_clamp hy]
  omega

theorem IsFinite.clamp_clamp : s.clamp (s.clamp x) = s.clamp x :=
  have hnearest := hs.nearest_clamp hx
  (hs.nearest_clamp (hs.clamp hx)).inside hnearest.ge hnearest.le

end

end Slider

variable {α β : Type}

namespace Registry

section

variable {r : Registry α} {id : VariableId} {b : β} {e : Entry α}
  {f : Entry α → Except VariableError (β × Entry α)}

theorem update_eq_self (hfind : r.find? id = some e) (hf : f e = .ok (b, e)) :
    r.update id f = .ok (b, r) := by
  obtain ⟨r', hr'⟩ := update_of_find hfind hf
  obtain ⟨i, d, d', hi, hd, hfd, rfl⟩ := update_eq_ok hr'
  obtain rfl : e = d := Option.some.inj (hfind.symm.trans ((find?_eq_getElem? hi).trans hd))
  obtain ⟨-, rfl⟩ := Prod.mk.inj (Except.ok.inj (hf.symm.trans hfd))
  obtain ⟨hlt, rfl⟩ := List.getElem?_eq_some_iff.mp hd
  rw [hr', List.set_getElem_self]

theorem find?_push {name : String} {c : Content α} (hfind : r.find? id = some e) :
    (((r.push name c).map Prod.snd).getD r).find? id = some e := by
  cases h : r.push name c with
  | none => exact hfind
  | some u =>
      obtain ⟨-, -, hu⟩ := push_eq_some h
      rw [find?] at hfind
      rw [Option.map_some, Option.getD_some, hu, find?, List.find?_append, hfind]
      rfl

end

variable [Scalar α] {r : Registry α} {id : VariableId} {name : String} {s : Slider α}

/-- The operations that set the number of a slider, and the one that takes it out. -/
def Operation.resets (id : VariableId) : Operation α → Bool
  | .slide other _ | .edit other .value _ | .remove other => decide (other = id)
  | _ => false

theorem value_edit (hfind : r.find? id = some ⟨id, name, .slider s⟩) {field : Field}
    (hfield : field ≠ .value) (text : String) :
    ∃ name' s', (r.perform (.edit id field text)).find? id = some ⟨id, name', .slider s'⟩ ∧
      s'.value = s.value := by
  rw [perform, edit]
  cases h : r.update id fun e => e.edit field text with
  | error err => exact ⟨name, s, hfind, rfl⟩
  | ok u =>
      obtain ⟨k, r'⟩ := u
      obtain ⟨i, e, e', he, hedit, -, he', -⟩ :=
        located_update (fun _ _ he => (Entry.edit_eq_ok he).1) h
      obtain rfl : ⟨id, name, .slider s⟩ = e := Option.some.inj (hfind.symm.trans he)
      cases Entry.edited_of_edit hedit with
      | value => exact absurd rfl hfield
      | _ => exact ⟨_, _, he', rfl⟩

/-- A slider refuses to be dragged. -/
theorem perform_setPoint_of_slider (hfind : r.find? id = some ⟨id, name, .slider s⟩)
    (z : PlanePoint α) (v : View α) (size : Option (ScreenSize α)) :
    r.perform (.setPoint id z v size) = r := by
  rw [perform, setPoint, update_eq, hfind]
  rfl

/-- Every other operation keeps the number of a slider. -/
theorem value_perform (hfind : r.find? id = some ⟨id, name, .slider s⟩) {op : Operation α}
    (hop : op.resets id = false) :
    ∃ name' s', (r.perform op).find? id = some ⟨id, name', .slider s'⟩ ∧ s'.value = s.value := by
  have hother {target : VariableId} (htarget : op.target? = some target) (hne : target ≠ id) :
      ∃ name' s', (r.perform op).find? id = some ⟨id, name', .slider s'⟩ ∧ s'.value = s.value :=
    ⟨name, s, (find?_perform_of_ne r htarget hne).trans hfind, rfl⟩
  cases op with
  | addSlider text s' => exact ⟨name, s, find?_push hfind, rfl⟩
  | addPoint text z => exact ⟨name, s, find?_push hfind, rfl⟩
  | remove other => exact hother rfl (of_decide_eq_false hop)
  | edit other field text =>
      by_cases hid : other = id
      · subst hid
        refine value_edit hfind ?_ text
        rintro rfl
        exact of_decide_eq_false hop rfl
      · exact hother rfl hid
  | slide other raw => exact hother rfl (of_decide_eq_false hop)
  | setPoint other z v size =>
      by_cases hid : other = id
      · subst hid
        exact ⟨name, s, (congrArg (find? · other) (perform_setPoint_of_slider hfind z v size)).trans
          hfind, rfl⟩
      · exact hother rfl hid
  | placeMarkers v size =>
      refine ⟨name, s, ?_, rfl⟩
      rw [perform, find?_placeMarkers, hfind]
      rfl

theorem value_run (hfind : r.find? id = some ⟨id, name, .slider s⟩) {ops : List (Operation α)}
    (hops : ∀ op ∈ ops, op.resets id = false) :
    ∃ name' s', (r.run ops).find? id = some ⟨id, name', .slider s'⟩ ∧ s'.value = s.value := by
  induction ops generalizing r name s with
  | nil => exact ⟨name, s, hfind, rfl⟩
  | cons op ops ih =>
      obtain ⟨name', s', hfind', hvalue⟩ := value_perform hfind (hops op List.mem_cons_self)
      obtain ⟨name'', s'', hfind'', hvalue'⟩ :=
        ih hfind' fun op hmem => hops op (List.mem_cons_of_mem _ hmem)
      exact ⟨name'', s'', hfind'', hvalue'.trans hvalue⟩

theorem position?_of_find (hfind : r.find? id = some ⟨id, name, .slider s⟩) :
    r.position? id = some s.position := by
  rw [position?, hfind]
  rfl

theorem slide_of_find (hfind : r.find? id = some ⟨id, name, .slider s⟩) (raw : α) :
    let x := s.clamp (Scalar.finiteOrZero raw)
    ∃ r', r.slide id raw = .ok (x, r') ∧
      r'.find? id = some ⟨id, name, .slider { s with value := x }⟩ := by
  intro x
  obtain ⟨r', hr'⟩ := update_of_find (f := fun e : Entry α => e.slide raw) hfind rfl
  obtain ⟨i, e, e', he, hslide, -, he', -⟩ :=
    located_update (fun _ _ he => (Entry.slide_eq_ok he).1) hr'
  obtain rfl : ⟨id, name, .slider s⟩ = e := Option.some.inj (hfind.symm.trans he)
  obtain ⟨-, rfl⟩ := Prod.mk.inj (Except.ok.inj hslide)
  exact ⟨r', hr', he'⟩

section

variable {p : Content α → Prop}

omit [Scalar α] in
theorem Every.orSame (h : r.Every p) {f : Entry α → Except VariableError (β × Entry α)}
    (hf : ∀ b e e', f e = .ok (b, e') → p e.content → p e'.content) :
    (((r.update id f).toOption.map Prod.snd).getD r).Every p := by
  cases hu : r.update id f with
  | error err => exact h
  | ok u => exact h.update (hf u.1) hu

omit [Scalar α] in
theorem Every.pushed (h : r.Every p) {c : Content α} (hc : p c) :
    (((r.push name c).map Prod.snd).getD r).Every p := by
  cases hu : r.push name c with
  | none => exact h
  | some u => exact h.push hu hc

variable (hp : Content.Lasting p)

include hp

theorem Every.perform (h : r.Every p) (op : Operation α) : (r.perform op).Every p := by
  cases op with
  | addSlider text s' => exact h.pushed (hp.slider s')
  | addPoint text z => exact h.pushed (hp.point z)
  | remove other =>
      rw [Registry.perform]
      cases hu : r.remove other with
      | none => exact h
      | some u => exact h.remove hu
  | edit other field text => exact h.orSame fun _ _ _ => hp.edited
  | slide other raw => exact h.orSame fun _ _ _ => hp.slid
  | setPoint other z v size => exact h.orSame fun _ _ _ => hp.moved
  | placeMarkers v size => exact h.placeMarkers hp v size

theorem Every.run (h : r.Every p) (ops : List (Operation α)) : (r.run ops).Every p := by
  induction ops generalizing r with
  | nil => exact h
  | cons op ops ih => exact ih (h.perform hp op)

end

/-- A slide stores the nearest number in the range, where the thumb then is and stays. -/
theorem slide_keeps_range {r : Registry Float} {s : Slider Float} (hs : s.IsFinite)
    (hfind : r.find? id = some ⟨id, name, .slider s⟩) (raw : Float) :
    ∃ x r', r.slide id raw = .ok (x, r') ∧
      s.Nearest (if raw.isFinite then raw else 0.0) x ∧
      (s.lower ≤ raw → raw ≤ s.upper → x = raw) ∧
      r'.find? id = some ⟨id, name, .slider { s with value := x }⟩ ∧
      r'.position? id = some x ∧ r'.slide id x = .ok (x, r') := by
  obtain ⟨r', hslide, hfind'⟩ := slide_of_find hfind raw
  have hnumber : (Scalar.finiteOrZero raw).isFinite = true := Double.isFinite_finiteOrZero raw
  have hnearest := hs.nearest_clamp hnumber
  have hthere := hs.clamp_clamp hnumber
  have hfinite := hs.clamp hnumber
  generalize s.clamp (Scalar.finiteOrZero raw) = x at *
  refine ⟨x, r', hslide, hnearest, ?_, hfind', ?_, ?_⟩
  · intro hge hle
    obtain ⟨hlower, hupper, -⟩ := hs.ends
    have hraw : Scalar.finiteOrZero raw = raw :=
      if_pos (Double.isFinite_of_between hlower hupper hge hle)
    rw [hraw] at hnearest
    exact hnearest.inside hge hle
  · rw [position?_of_find hfind']
    exact congrArg some hthere
  · have hx : Scalar.finiteOrZero x = x := if_pos hfinite
    have hclamp : ({ s with value := x } : Slider Float).clamp (Scalar.finiteOrZero x) = x := by
      rw [hx]
      exact hthere
    refine update_eq_self hfind' ?_
    simp only [Entry.slide, hclamp]

theorem slide_le_slide {r r₁ r₂ : Registry Float} {s : Slider Float} (hs : s.IsFinite)
    (hfind : r.find? id = some ⟨id, name, .slider s⟩) {raw raw' x x' : Float}
    (hraw : raw.isFinite = true) (hraw' : raw'.isFinite = true) (hle : raw ≤ raw')
    (h : r.slide id raw = .ok (x, r₁)) (h' : r.slide id raw' = .ok (x', r₂)) : x ≤ x' := by
  obtain ⟨r₁', hslide, -⟩ := slide_of_find hfind raw
  obtain ⟨r₂', hslide', -⟩ := slide_of_find hfind raw'
  obtain ⟨rfl, -⟩ := Prod.mk.inj (Except.ok.inj (h.symm.trans hslide))
  obtain ⟨rfl, -⟩ := Prod.mk.inj (Except.ok.inj (h'.symm.trans hslide'))
  have hfirst : Scalar.finiteOrZero raw = raw := if_pos hraw
  have hsecond : Scalar.finiteOrZero raw' = raw' := if_pos hraw'
  rw [hfirst, hsecond]
  exact hs.clamp_le_clamp hraw hraw' hle

/-- Sliders keep to their range, whatever was typed and slid before. The thumb sits at the number of
the range that is nearest to the stored one. A slide stores and returns the nearest number too, with
zero for what is not finite: the given number itself if it is in the range. Then the thumb sits
there, and to slide there once more changes nothing. What is slid further is not stored lower. And
the stored number stays until it is slid or typed, or the slider is removed. -/
theorem run_slider_keeps_range (ops : List (Operation Float)) (id : VariableId) (name : String)
    (s : Slider Float) :
    let r : Registry Float := empty.run ops
    r.find? id = some ⟨id, name, .slider s⟩ →
    (∃ x, r.position? id = some x ∧ s.Nearest s.value x) ∧
    (∀ raw, ∃ x r', r.slide id raw = .ok (x, r') ∧
      s.Nearest (if raw.isFinite then raw else 0.0) x ∧
      (s.lower ≤ raw → raw ≤ s.upper → x = raw) ∧
      r'.find? id = some ⟨id, name, .slider { s with value := x }⟩ ∧
      r'.position? id = some x ∧ r'.slide id x = .ok (x, r')) ∧
    (∀ raw raw' x x' r₁ r₂, raw.isFinite = true → raw'.isFinite = true → raw ≤ raw' →
      r.slide id raw = .ok (x, r₁) → r.slide id raw' = .ok (x', r₂) → x ≤ x') ∧
    ∀ more : List (Operation Float), (∀ op ∈ more, op.resets id = false) →
      ∃ name' s', (r.run more).find? id = some ⟨id, name', .slider s'⟩ ∧ s'.value = s.value := by
  intro r hfind
  have hfinite : r.Every fun c => c.value.IsFinite := every_empty.run Content.lasting_isFinite ops
  have hs : s.IsFinite := hfinite _ (List.mem_of_find?_eq_some hfind)
  refine ⟨⟨s.position, position?_of_find hfind, hs.nearest_clamp hs.value⟩,
    slide_keeps_range hs hfind, ?_, fun more => value_run hfind⟩
  intro raw raw' x x' r₁ r₂ hraw hraw' hle h h'
  exact slide_le_slide hs hfind hraw hraw' hle h h'

/-- The ends were typed in the wrong order and the value above both. A slide to NaN goes to the
lower end. -/
theorem run_slider_keeps_range_inverted :
    let ops : List (Operation Float) :=
      [.addSlider "a" .initial, .edit ⟨0⟩ .min "5", .edit ⟨0⟩ .max "2", .edit ⟨0⟩ .value "7.5"]
    let more : List (Operation Float) := [.edit ⟨0⟩ .max "-1e999", .edit ⟨0⟩ .step "1"]
    let r : Registry Float := empty.run ops
    let s : Slider Float := ⟨7.5, 5, 2, 0.01⟩
    r.find? ⟨0⟩ = some ⟨⟨0⟩, "a", .slider s⟩ ∧ s.lower = 2 ∧ s.upper = 5 ∧
      r.position? ⟨0⟩ = some 5 ∧
      (∃ r', r.slide ⟨0⟩ (0 / 0) = .ok (2, r') ∧ r'.slide ⟨0⟩ 2 = .ok (2, r')) ∧
      (∀ op ∈ more, op.resets ⟨0⟩ = false) ∧
      ∃ name' s', (r.run more).find? ⟨0⟩ = some ⟨⟨0⟩, name', .slider s'⟩ ∧ s'.value = 7.5 := by
  intro ops more r s
  have hfind : r.find? ⟨0⟩ = some ⟨⟨0⟩, "a", .slider s⟩ := by decide +kernel
  have hlower : s.lower = 2 := by decide +kernel
  have hupper : s.upper = 5 := by decide +kernel
  have habove : s.upper < s.value := by decide +kernel
  have hbelow : (if (0 / 0 : Float).isFinite then 0 / 0 else 0.0) < s.lower := by decide +kernel
  have hmore : ∀ op ∈ more, op.resets ⟨0⟩ = false := by decide +kernel
  obtain ⟨⟨x, hposition, hx⟩, hslide, -, hkept⟩ := run_slider_keeps_range ops ⟨0⟩ "a" s hfind
  obtain ⟨y, r', hy, hnearest, -, -, -, hagain⟩ := hslide (0 / 0)
  obtain rfl : y = 2 := (hnearest.below hbelow).trans hlower
  refine ⟨hfind, hlower, hupper, ?_, ⟨r', hy, hagain⟩, hmore, hkept more hmore⟩
  rw [hposition, hx.above habove, hupper]

end Registry

end PlotPane
