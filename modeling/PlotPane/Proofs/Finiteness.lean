import PlotPane.Number.Double
import PlotPane.Proofs.Contents

/-!
# All numbers of variables are finite

The page, the keyboard and the pointer may bring any double, infinities and NaN among them. What
enters the registry is made finite first, and a thumb that is clamped takes one of three numbers
that are there already. The plotter and the page are told numbers of the registry only, so they
never hear of an infinity or of NaN.
-/

namespace PlotPane

variable {α σ : Type}

theorem Call.slot_not_mem_of_topic {topic : Topic} (htopic : topic ≠ .slots) {cs : List (Call α)}
    (h : ∀ c ∈ cs, c.topic = topic) (i : Nat) (z : PlanePoint α) : Call.slot i z ∉ cs := by
  intro hmem
  exact htopic (h _ hmem).symm

theorem Outcome.slot_not_mem_calls (o : Outcome) (i : Nat) (z : PlanePoint α) :
    Call.slot i z ∉ o.calls :=
  Call.slot_not_mem_of_topic (by decide) (fun _ hc => topic_calls hc) i z

theorem Content.slider?_eq_some {c : Content α} {s : Slider α} (h : c.slider? = some s) :
    c = .slider s := by
  cases c with
  | slider s' => exact congrArg Content.slider (Option.some.inj h)
  | point z handle => cases h

variable [Scalar α]

structure Slider.IsFinite (s : Slider α) : Prop where
  value : Scalar.isFinite s.value = true
  min : Scalar.isFinite s.min = true
  max : Scalar.isFinite s.max = true
  step : Scalar.isFinite s.step = true

structure PlanePoint.IsFinite (z : PlanePoint α) : Prop where
  re : Scalar.isFinite z.re = true
  im : Scalar.isFinite z.im = true

def Value.IsFinite : Value α → Prop
  | .slider s => s.IsFinite
  | .point z => z.IsFinite

theorem Slider.isFinite_mk {value min max step : α} (hvalue : Scalar.isFinite value = true)
    (hmin : Scalar.isFinite min = true) (hmax : Scalar.isFinite max = true)
    (hstep : Scalar.isFinite step = true) : (⟨value, min, max, step⟩ : Slider α).IsFinite :=
  ⟨hvalue, hmin, hmax, hstep⟩

theorem PlanePoint.isFinite_mk {re im : α} (hre : Scalar.isFinite re = true)
    (him : Scalar.isFinite im = true) : (⟨re, im⟩ : PlanePoint α).IsFinite :=
  ⟨hre, him⟩

theorem Scalar.larger_cases (x y : α) : larger x y = x ∨ larger x y = y := by
  rw [larger]
  split
  · exact Or.inr rfl
  · exact Or.inl rfl

theorem Scalar.smaller_cases (x y : α) : smaller x y = x ∨ smaller x y = y := by
  rw [smaller]
  split
  · exact Or.inr rfl
  · exact Or.inl rfl

namespace Slider

theorem range_cases (s : Slider α) : s.range = (s.min, s.max) ∨ s.range = (s.max, s.min) := by
  rw [range]
  split
  · exact Or.inl rfl
  · exact Or.inr rfl

theorem IsFinite.clamp {s : Slider α} (h : s.IsFinite) {x : α} (hx : Scalar.isFinite x = true) :
    Scalar.isFinite (s.clamp x) = true := by
  have hends : Scalar.isFinite s.range.1 = true ∧ Scalar.isFinite s.range.2 = true := by
    rcases s.range_cases with hrange | hrange
    · rw [hrange]
      exact ⟨h.min, h.max⟩
    · rw [hrange]
      exact ⟨h.max, h.min⟩
  -- Nothing is computed: the result is `x` or one of the two ends.
  rw [Slider.clamp]
  rcases Scalar.smaller_cases (Scalar.larger x s.range.1) s.range.2 with heq | heq
  · rw [heq]
    rcases Scalar.larger_cases x s.range.1 with heq | heq
    · rw [heq]
      exact hx
    · rw [heq]
      exact hends.1
  · rw [heq]
    exact hends.2

end Slider

theorem Entry.isFinite_edit {e e' : Entry α} {field : Field} {text : String} {k : Edit}
    (htext : Scalar.isFinite (Scalar.ofText text : α) = true)
    (h : e.edit field text = .ok (k, e')) (he : e.content.value.IsFinite) :
    e'.content.value.IsFinite := by
  cases edited_of_edit h with
  | name => exact he
  | value => exact Slider.isFinite_mk htext he.min he.max he.step
  | min => exact Slider.isFinite_mk he.value htext he.max he.step
  | max => exact Slider.isFinite_mk he.value he.min htext he.step
  | step => exact Slider.isFinite_mk he.value he.min he.max htext
  | re => exact PlanePoint.isFinite_mk htext he.im
  | im => exact PlanePoint.isFinite_mk he.re htext

namespace Registry

def IsFinite (r : Registry α) : Prop :=
  ∀ e ∈ r.entries, e.content.value.IsFinite

theorem isFinite_empty : (empty : Registry α).IsFinite :=
  List.forall_mem_nil _

theorem mem_slots_of_mem_slotCalls {r : Registry α} {i : Nat} {z : PlanePoint α}
    (h : Call.slot i z ∈ r.slotCalls) : z ∈ r.slots := by
  obtain ⟨⟨w, j⟩, hmem, heq⟩ := List.mem_map.mp h
  obtain ⟨rfl, rfl⟩ := Call.slot.inj heq
  exact List.fst_mem_of_mem_zipIdx hmem

end Registry

namespace Session

variable {compiler : Compiler} {event : Event α} {wanted : Bool} {s s' : Session α σ}
  {cs : List (Call α)} {i : Nat} {z : PlanePoint α}

theorem Compilation.mem_slots (hc : s.Compilation compiler wanted s' cs)
    (h : Call.slot i z ∈ cs) : z ∈ s'.registry.slots := by
  cases hc with
  | accepted hv =>
      rcases List.mem_append.mp h with hslot | hrest
      · exact Registry.mem_slots_of_mem_slotCalls hslot
      · rcases List.mem_cons.mp hrest with heq | hdrawn
        · cases heq
        · exact absurd hdrawn (Outcome.slot_not_mem_calls _ i z)
  | rejected hv =>
      rcases List.mem_append.mp h with hslot | hrest
      · exact Registry.mem_slots_of_mem_slotCalls hslot
      · cases List.mem_singleton.mp hrest

/-- What is written to a slot is the number of a variable after the change. -/
theorem Effect.mem_slots (he : Effect compiler event s s' cs) (h : Call.slot i z ∈ cs) :
    z ∈ s'.registry.slots := by
  have hdrawn (o : Outcome) : Call.slot i z ∉ o.calls := o.slot_not_mem_calls i z
  cases he with
  | silent => cases h
  | auto b => cases h
  | preferred hprefers => cases h
  | drawn hwanted => exact absurd h (hdrawn _)
  | restyled hstyle =>
      rcases List.mem_cons.mp h with rfl | hframe
      · cases hstyle.topic
      · exact absurd hframe (hdrawn _)
  | unseen hsize hv => cases h
  | looked hsize hv =>
      rcases List.mem_cons.mp h with heq | hframe
      · cases heq
      · exact absurd hframe (hdrawn _)
  | surfaced hv =>
      rcases List.mem_append.mp h with hview | hframe
      · cases View.topic_calls hview
      · exact absurd hframe (hdrawn _)
  | ranged hr => cases h
  | revalued hr =>
      rcases List.mem_append.mp h with hslot | hframe
      · exact Registry.mem_slots_of_mem_slotCalls hslot
      · exact absurd hframe (hdrawn _)
  | @dragged id w size r j e hsize hr hj hfind =>
      rcases List.mem_cons.mp h with heq | hframe
      · obtain ⟨rfl, rfl⟩ := Call.slot.inj heq
        exact List.mem_map.mpr ⟨e, List.mem_of_find?_eq_some hfind, rfl⟩
      · exact absurd hframe (hdrawn _)
  | compiled hr hc => exact hc.mem_slots h

end Session

theorem Entry.slider_of_mem_reports {e : Entry α} {id : VariableId} {value position : α}
    (h : .sliderChanged id value position ∈ e.reports) :
    ∃ s : Slider α, e.content = .slider s ∧ value = s.value ∧ position = s.position := by
  rcases mem_reports_iff.mp h with heq | hmarker | hslider | hfields
  · cases heq
  · obtain ⟨p, -, heq⟩ := List.mem_map.mp hmarker
    cases heq
  · obtain ⟨s, hs, heq⟩ := List.mem_map.mp hslider
    obtain ⟨-, rfl, rfl⟩ := Action.sliderChanged.inj heq
    exact ⟨s, Content.slider?_eq_some (Option.mem_toList.mp hs), rfl, rfl⟩
  · obtain ⟨h, -, heq⟩ := List.mem_map.mp hfields
    cases heq

/-- What an answer tells of a slider is what the slider has after the event. -/
theorem Session.slider_of_told [KeyValueStore σ] {compiler : Compiler} {s : Session α σ}
    {e : Event α} {id : VariableId} {value position : α}
    (h : .sliderChanged id value position ∈ (s.handle compiler e).reply.told) :
    ∃ x ∈ (s.handle compiler e).session.registry.entries, ∃ slider : Slider α,
      x.content = .slider slider ∧ value = slider.value ∧ position = slider.position := by
  obtain ⟨x, hx, hreports⟩ := handle_reports compiler s e _ h (Option.some_ne_none id)
  exact ⟨x, hx, Entry.slider_of_mem_reports hreports⟩

namespace Double

theorem isFinite_finiteOrZero (x : Float) : Scalar.isFinite (Scalar.finiteOrZero x) = true := by
  rw [Scalar.finiteOrZero]
  split
  · next h => exact h
  · exact isFinite_zero

theorem isFinite_ofText (text : String) : Scalar.isFinite (Scalar.ofText text : Float) = true := by
  rw [Scalar.ofText]
  split
  · exact isFinite_finiteOrZero _
  · exact isFinite_zero

end Double

theorem Slider.isFinite_finiteOrZero (s : Slider Float) : s.finiteOrZero.IsFinite :=
  ⟨Double.isFinite_finiteOrZero _, Double.isFinite_finiteOrZero _, Double.isFinite_finiteOrZero _,
    Double.isFinite_finiteOrZero _⟩

theorem PlanePoint.isFinite_finiteOrZero (z : PlanePoint Float) : z.finiteOrZero.IsFinite :=
  ⟨Double.isFinite_finiteOrZero _, Double.isFinite_finiteOrZero _⟩

theorem Value.IsFinite.slot {v : Value Float} (h : v.IsFinite) : v.slot.IsFinite := by
  cases v with
  | slider s => exact ⟨Slider.IsFinite.value h, Double.isFinite_zero⟩
  | point z => exact h

namespace Entry

variable {e e' : Entry Float}

theorem isFinite_slide {raw x : Float} (h : e.slide raw = .ok (x, e'))
    (he : e.content.value.IsFinite) : e'.content.value.IsFinite := by
  obtain ⟨id, name, s, rfl, rfl, rfl⟩ := slid_of_slide h
  have hs : s.IsFinite := he
  exact { hs with value := hs.clamp (Double.isFinite_finiteOrZero raw) }

theorem isFinite_setPoint {z : PlanePoint Float} {v : View Float} {size : Option (ScreenSize Float)}
    {u : Unit} (h : e.setPoint z v size = .ok (u, e')) : e'.content.value.IsFinite := by
  obtain ⟨id, name, w, handle, rfl, rfl⟩ := moved_of_setPoint h
  exact z.isFinite_finiteOrZero

end Entry

theorem Content.lasting_isFinite : Lasting fun c : Content Float => c.value.IsFinite where
  slider s := s.isFinite_finiteOrZero
  point z := z.isFinite_finiteOrZero
  placed {c} v size h := by
    cases c with
    | slider s => exact h
    | point z handle => exact h
  edited hedit h := Entry.isFinite_edit (Double.isFinite_ofText _) hedit h
  slid hslide h := Entry.isFinite_slide hslide h
  moved hmove _ := Entry.isFinite_setPoint hmove

namespace Registry

theorem IsFinite.of_mem_slots {r : Registry Float} (h : r.IsFinite) {z : PlanePoint Float}
    (hz : z ∈ r.slots) : z.IsFinite := by
  obtain ⟨e, he, rfl⟩ := List.mem_map.mp hz
  exact (h e he).slot

end Registry

namespace Session

variable {compiler : Compiler} {event : Event Float} {s s' : Session Float σ}
  {cs : List (Call Float)}

/-- The registry holds finite numbers, and no others were written to a slot. -/
structure KeepsFinite (s : Session Float σ) (log : List (Call Float)) : Prop where
  registry : s.registry.IsFinite
  slots : ∀ i z, Call.slot i z ∈ log → z.IsFinite

theorem Effect.keepsFinite {log : List (Call Float)} (h : Effect compiler event s s' cs)
    (hs : s.KeepsFinite log) : s'.KeepsFinite (log ++ cs) := by
  have hregistry : s'.registry.IsFinite := h.every Content.lasting_isFinite hs.registry
  refine ⟨hregistry, ?_⟩
  intro i z hmem
  rcases List.mem_append.mp hmem with hold | hnew
  · exact hs.slots i z hold
  · exact hregistry.of_mem_slots (h.mem_slots hnew)

end Session

namespace Transcript

variable [KeyValueStore σ]

theorem keepsFinite_run {r : Transcript Float σ} (h : r.session.KeepsFinite r.calls)
    (steps : List (Step Float)) : (r.run steps).session.KeepsFinite (r.run steps).calls := by
  refine run_keeps_calls (P := fun s cs => s.KeepsFinite cs) ?_ ?_ ?_ h steps
  · intro s s' log haside hs
    exact ⟨haside.registry ▸ hs.registry, hs.slots⟩
  · intro compiler event s s' cs log heffect hs
    exact heffect.keepsFinite hs
  · intro s log hs
    refine ⟨hs.registry, ?_⟩
    intro i z hmem
    rcases List.mem_append.mp hmem with hold | hstyle
    · exact hs.slots i z hold
    · cases Style.topic_calls hstyle

/-- Whatever numbers and texts come into a session, all numbers of all variables are finite after
every event, only finite numbers are ever written to a slot, and where an answer tells the value of
a slider and the place of its thumb, both are finite. -/
theorem run_numbers_finite {store : σ} {settings : Settings Float} {s : Session Float σ}
    (hs : Session.ofSettings store settings = .ok s) (steps : List (Step Float)) :
    let r := (ofSession s).run steps
    (∀ v ∈ r.session.registry.toVariables, v.value.IsFinite) ∧
    (∀ i z, Call.slot i z ∈ r.calls → z.IsFinite) ∧
    ∀ before x after, steps = before ++ x :: after →
      let a := ((ofSession s).run before).session.handle x.compiler x.event
      ∀ id value position, .sliderChanged id value position ∈ a.reply.told →
        Scalar.isFinite value = true ∧ Scalar.isFinite position = true := by
  intro r
  obtain ⟨-, rfl⟩ := Session.ofSettings_eq_ok_iff.mp hs
  have hbegun : (ofSession (Session.begun store settings)).session.KeepsFinite [] :=
    ⟨Registry.isFinite_empty, fun i z h => absurd h List.not_mem_nil⟩
  have hr : r.session.KeepsFinite r.calls := keepsFinite_run hbegun steps
  refine ⟨?_, hr.slots, ?_⟩
  · intro v hv
    obtain ⟨e, he, rfl⟩ := List.mem_map.mp hv
    exact hr.registry e he
  · intro before x after hsplit a id value position htold
    -- The registry after this event is that of a shorter run.
    have hbefore := keepsFinite_run hbegun (before ++ [x])
    rw [run_append] at hbefore
    have hregistry : a.session.registry.IsFinite := hbefore.registry
    obtain ⟨e, he, slider, hcontent, rfl, rfl⟩ := Session.slider_of_told htold
    have hslider : slider.IsFinite := by
      have hvalue := hregistry e he
      rw [hcontent] at hvalue
      exact hvalue
    exact ⟨hslider.value, hslider.clamp hslider.value⟩

/-- A slider and a point are added with infinities and NaN, a text that overflows is typed for the
lower end of the slider, which is then slid to infinity, and the point is dragged to an infinite
abscissa. -/
theorem run_numbers_finite_unbounded :
    let s : Session Float MemoryStore := Session.begun ⟨[]⟩ .initial
    let accepting : Compiler := fun _ _ => .accepted
    let before : List (Step Float) :=
      [⟨accepting, .resize 100 100⟩, ⟨accepting, .addSlider "a" ⟨0 / 0, -1 / 0, 1, 1 / 0⟩⟩,
        ⟨accepting, .addPoint "b" ⟨1 / 0, 0 / 0⟩⟩, ⟨accepting, .editVariable ⟨0⟩ .min "-1e999"⟩]
    let x : Step Float := ⟨accepting, .slideVariable ⟨0⟩ (1 / 0)⟩
    let after : List (Step Float) :=
      [⟨accepting, .editVariable ⟨0⟩ .value "2.5"⟩,
        ⟨accepting, .pointerDown ⟨50, 50⟩ .primary (.ofMask 0)⟩,
        ⟨accepting, .pointerMove ⟨1 / 0, 25⟩ (.ofMask 0)⟩]
    let r := (ofSession s).run (before ++ x :: after)
    let a := ((ofSession s).run before).session.handle x.compiler x.event
    Session.ofSettings ⟨[]⟩ .initial = .ok s ∧
      r.session.registry.toVariables.map Variable.value =
        [.slider ⟨2.5, 0, 1, 0⟩, .point ⟨0, 1.5⟩] ∧
      (∀ v ∈ r.session.registry.toVariables, v.value.IsFinite) ∧
      Call.slot 1 ⟨0, 1.5⟩ ∈ r.calls ∧ PlanePoint.IsFinite (⟨0, 1.5⟩ : PlanePoint Float) ∧
      .sliderChanged ⟨0⟩ 0 0 ∈ a.reply.told ∧ Scalar.isFinite (0 : Float) = true := by
  intro s accepting before x after r a
  have hs : Session.ofSettings ⟨[]⟩ .initial = .ok s :=
    Session.ofSettings_eq_ok_iff.mpr ⟨by decide +kernel, rfl⟩
  obtain ⟨hvariables, hslots, htold⟩ := run_numbers_finite hs (before ++ x :: after)
  have hslot : Call.slot 1 ⟨0, 1.5⟩ ∈ r.calls := by decide +kernel
  have hslider : .sliderChanged ⟨0⟩ 0 0 ∈ a.reply.told := by decide +kernel
  exact ⟨hs, by decide +kernel, hvariables, hslot, hslots 1 _ hslot, hslider,
    (htold before x after rfl _ _ _ hslider).1⟩

end Transcript

end PlotPane
