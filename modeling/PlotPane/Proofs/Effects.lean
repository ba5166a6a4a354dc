import PlotPane.Proofs.Registry
import PlotPane.Proofs.Transcript

/-!
# What an event can do

There are many events and few ways in which they change a session. Here every answer is taken apart
into one effect, which changes the session and tells the plotter of it, and changes of the cursor
and the gesture on the side. Only the start of a session is made of two effects. What the page is
told of a variable is what the registry has after the event. An invariant is then proved for the
effects, and not for each event anew.
-/

namespace PlotPane

variable {α σ : Type}

namespace Session

/-- Two sessions that differ at most in the cursor and the gesture. -/
structure Aside (s s' : Session α σ) : Prop where
  settings : s'.settings = s.settings
  store : s'.store = s.store
  view : s'.view = s.view
  size : s'.size = s.size
  registry : s'.registry = s.registry
  scheduler : s'.scheduler = s.scheduler
  style : s'.style = s.style
  source : s'.source = s.source
  compileError : s'.compileError = s.compileError
  theme : s'.theme = s.theme

variable {s s' s'' : Session α σ}

theorem Aside.refl (s : Session α σ) : s.Aside s :=
  ⟨rfl, rfl, rfl, rfl, rfl, rfl, rfl, rfl, rfl, rfl⟩

theorem Aside.trans (h : s.Aside s') (h' : s'.Aside s'') : s.Aside s'' where
  settings := h'.settings.trans h.settings
  store := h'.store.trans h.store
  view := h'.view.trans h.view
  size := h'.size.trans h.size
  registry := h'.registry.trans h.registry
  scheduler := h'.scheduler.trans h.scheduler
  style := h'.style.trans h.style
  source := h'.source.trans h.source
  compileError := h'.compileError.trans h.compileError
  theme := h'.theme.trans h.theme

theorem Aside.cursor (s : Session α σ) (cursor : Option (ScreenPoint α)) :
    s.Aside { s with cursor := cursor } :=
  ⟨rfl, rfl, rfl, rfl, rfl, rfl, rfl, rfl, rfl, rfl⟩

theorem Aside.drag (s : Session α σ) (drag : Drag α) : s.Aside { s with drag := drag } :=
  ⟨rfl, rfl, rfl, rfl, rfl, rfl, rfl, rfl, rfl, rfl⟩

end Session

/-- The events by which the user asks for a frame, automatic or not. -/
def Event.wantsFrame : Event α → Bool
  | .start _ _ | .graph | .redraw => true
  | _ => false

/-- The events that bring a size for the screen. -/
def Event.resizes : Event α → Bool
  | .start _ _ | .resize _ _ => true
  | _ => false

/-- The events that change what is kept for the next session. -/
def Event.isPreference : Event α → Bool
  | .setSource _ | .setTheme _ | .toggleTheme => true
  | _ => false

theorem Event.start_or_other (e : Event α) :
    (∃ width height, e = .start width height) ∨ ∀ width height, e ≠ .start width height := by
  by_cases he : ∃ width height, e = .start width height
  · exact Or.inl he
  · exact Or.inr fun width height heq => he ⟨width, height, heq⟩

/-- The variable that an action says something of, other than that it is gone. -/
def Action.subject? : Action α → Option VariableId
  | .markerMoved id _ => some id
  | .pointFields id _ _ => some id
  | .sliderChanged id _ _ => some id
  | .added v => some v.id
  | _ => none

variable [Scalar α]

/-- All that a page can be told of a variable. -/
def Entry.reports (e : Entry α) : List (Action α) :=
  .added e.toVariable :: (Turn.markerActions e ++ (Turn.sliderActions e ++
    e.content.handle?.toList.map fun h => .pointFields e.id h.reText h.imText))

section

variable {e : Entry α} {a : Action α}

theorem Entry.added_mem_reports (e : Entry α) : .added e.toVariable ∈ e.reports :=
  List.mem_cons_self

theorem Entry.mem_reports_iff : a ∈ e.reports ↔
    a = .added e.toVariable ∨ a ∈ Turn.markerActions e ∨ a ∈ Turn.sliderActions e ∨
      a ∈ e.content.handle?.toList.map fun h => .pointFields e.id h.reText h.imText := by
  simp only [reports, List.mem_cons, List.mem_append]

theorem Entry.mem_reports_of_marker (h : a ∈ Turn.markerActions e) : a ∈ e.reports :=
  mem_reports_iff.mpr (Or.inr (Or.inl h))

theorem Entry.mem_reports_of_slider (h : a ∈ Turn.sliderActions e) : a ∈ e.reports :=
  mem_reports_iff.mpr (Or.inr (Or.inr (Or.inl h)))

theorem Entry.mem_reports_of_fields
    (h : a ∈ e.content.handle?.toList.map fun h => .pointFields e.id h.reText h.imText) :
    a ∈ e.reports :=
  mem_reports_iff.mpr (Or.inr (Or.inr (Or.inr h)))

theorem Entry.subject_of_mem_reports (h : a ∈ e.reports) : a.subject? = some e.id := by
  rcases mem_reports_iff.mp h with rfl | hmarker | hslider | hfields
  · rfl
  · obtain ⟨p, -, rfl⟩ := List.mem_map.mp hmarker
    rfl
  · obtain ⟨s, -, rfl⟩ := List.mem_map.mp hslider
    rfl
  · obtain ⟨h, -, rfl⟩ := List.mem_map.mp hfields
    rfl

end

namespace Registry

/-- If the action says something of a variable, a variable of the registry has it so. -/
def Reports (r : Registry α) (a : Action α) : Prop :=
  a.subject? ≠ none → ∃ e ∈ r.entries, a ∈ e.reports

variable {r : Registry α} {id : VariableId} {a : Action α}

theorem reports_of_subject (h : a.subject? = none) : r.Reports a :=
  fun hne => absurd h hne

theorem reports_of_find {e : Entry α} (hfind : r.find? id = some e) (ha : a ∈ e.reports) :
    r.Reports a :=
  fun _ => ⟨e, List.mem_of_find?_eq_some hfind, ha⟩

/-- What is told of the entry with an identity, if there is one. -/
theorem reports_of_flatMap {f : Entry α → List (Action α)} (hf : ∀ e, ∀ a ∈ f e, a ∈ e.reports)
    (ha : a ∈ (r.find? id).toList.flatMap f) : r.Reports a := by
  obtain ⟨e, he, ha⟩ := List.mem_flatMap.mp ha
  exact reports_of_find (Option.mem_toList.mp he) (hf e a ha)

end Registry

def Scheduler.requestFor (wanted : Bool) (s : Scheduler) : Outcome × Scheduler :=
  if wanted then s.drawNow else s.request

/-- One setting of a style changes. The plotter is told the setting that is kept. -/
inductive Style.Restyled (s : Style α) : Style α → Call α → Prop
  | shading (x : α) :
      Restyled s { s with shading := clampIntensity x } (.shading (clampIntensity x))
  | contour (x : α) :
      Restyled s { s with contour := clampIntensity x } (.contour (clampIntensity x))
  | decorations (mask : UInt32) :
      Restyled s { s with decorations := mask } (.decorations mask)
  | coloring (mode : UInt32) : Restyled s { s with coloring := mode } (.coloring mode)
  | grid (mode : UInt32) : Restyled s { s with grid := mode } (.grid mode)

theorem Style.Restyled.topic {style style' : Style α} {c : Call α}
    (h : style.Restyled style' c) : c.topic = .style := by
  cases h <;> rfl

/-- All that the plotter is told of a view on a screen. -/
def View.calls (v : View α) (size : ScreenSize α) : List (Call α) :=
  [.resize (Scalar.pixels (size.width * v.resolution)) (Scalar.pixels (size.height * v.resolution)),
    .resolution v.resolution, .bounds (v.bounds size)]

theorem View.topic_calls {v : View α} {size : ScreenSize α} {c : Call α} (h : c ∈ v.calls size) :
    c.topic = .view := by
  simp only [calls, List.mem_cons, List.not_mem_nil, or_false] at h
  rcases h with rfl | rfl | rfl <;> rfl

theorem View.moveTo_eq_ok_iff {v v' : View α} {z : PlanePoint α} :
    v.moveTo z = .ok v' ↔
      (Scalar.isFinite z.re = true ∧ Scalar.isFinite z.im = true) ∧
        { v with center := z } = v' := by
  rw [moveTo, ite_eq_ok_iff, Bool.and_eq_true_iff, Except.ok.injEq]

theorem View.zoomBy_eq_ok_iff {v v' : View α} {cursor : ScreenPoint α} {factor : α}
    {size : ScreenSize α} :
    v.zoomBy cursor factor size = .ok v' ↔
      Scalar.isMeasure (v.scale * factor) = true ∧
        ∃ moved, v.moveTo (v.pannedCenter (zoomShift cursor factor size) size) = .ok moved ∧
          { moved with scale := v.scale * factor } = v' := by
  rw [zoomBy, ite_eq_ok_iff, map_eq_ok_iff]

inductive View.Moved (v : View α) (size : Option (ScreenSize α)) : View α → Prop
  | reset {scale : α} {v' : View α} (h : v.reset scale = .ok v') : Moved v size v'
  | panned {delta : ScreenPoint α} {screen : ScreenSize α} {v' : View α}
      (hsize : size = some screen) (h : v.pan delta screen = .ok v') : Moved v size v'
  | zoomed {cursor : ScreenPoint α} {amount rate factor : α} {screen : ScreenSize α}
      {v' : View α} (hsize : size = some screen)
      (h : v.zoom cursor amount rate screen = .ok (factor, v')) : Moved v size v'

/-- The changes of a registry after which the expression is compiled. -/
inductive Registry.Relisted (v : View α) (size : Option (ScreenSize α)) (r : Registry α) :
    Registry α → Prop
  | same : Relisted v size r r
  | slider {name : String} {s : Slider α} {id : VariableId} {r' : Registry α}
      (h : r.addSlider name s = some (id, r')) : Relisted v size r r'
  | point {name : String} {z : PlanePoint α} {id : VariableId} {r' : Registry α}
      (h : r.addPoint name z = some (id, r')) : Relisted v size r (r'.placeMarkers v size)
  | removed {id : VariableId} {x : Variable α} {r' : Registry α}
      (h : r.remove id = some (x, r')) : Relisted v size r r'
  | renamed {id : VariableId} {field : Field} {text : String} {r' : Registry α}
      (h : r.edit id field text = .ok (.name, r')) : Relisted v size r r'

/-- The changes of a registry after which all slots are written. -/
inductive Registry.Revalued (v : View α) (size : Option (ScreenSize α)) (r : Registry α) :
    Registry α → Prop
  | typed {id : VariableId} {field : Field} {text : String} {r' : Registry α}
      (h : r.edit id field text = .ok (.value, r')) : Revalued v size r (r'.placeMarkers v size)
  | slid {id : VariableId} {raw x : α} {r' : Registry α}
      (h : r.slide id raw = .ok (x, r')) : Revalued v size r r'

namespace Session

/-- The slots and the names are sent, and the plotter takes the expression or rejects it. -/
inductive Compilation (compiler : Compiler) (wanted : Bool) (s : Session α σ) :
    Session α σ → List (Call α) → Prop
  | accepted (h : compiler s.source s.registry.names = .accepted) :
      Compilation compiler wanted s
        { s with
          compileError := none
          scheduler := ((s.scheduler.setReady true).requestFor wanted).2 }
        (s.registry.slotCalls ++ .compile s.source s.registry.names ::
          ((s.scheduler.setReady true).requestFor wanted).1.calls)
  | rejected {message : String} (h : compiler s.source s.registry.names = .rejected message) :
      Compilation compiler wanted s
        { s with
          compileError :=
            some (if Text.allBlank message then Turn.fallbackMessage else message)
          scheduler := s.scheduler.setReady false }
        (s.registry.slotCalls ++ [.compile s.source s.registry.names])

theorem Compilation.eq_with {compiler : Compiler} {wanted : Bool} {s s' : Session α σ}
    {cs : List (Call α)} (h : s.Compilation compiler wanted s' cs) :
    ∃ error scheduler, s' = { s with compileError := error, scheduler := scheduler } := by
  cases h with
  | accepted hv => exact ⟨_, _, rfl⟩
  | rejected hv => exact ⟨_, _, rfl⟩

/-- One change of a session that an event can make, with what the plotter is told of it. -/
inductive Effect (compiler : Compiler) (event : Event α) (s : Session α σ) :
    Session α σ → List (Call α) → Prop
  | silent : Effect compiler event s s []
  | auto (b : Bool) : Effect compiler event s { s with scheduler := s.scheduler.setAuto b } []
  | preferred {source : String} {theme : Theme} {store : σ} (h : event.isPreference = true) :
      Effect compiler event s { s with source := source, theme := theme, store := store } []
  | drawn (h : event.wantsFrame = true) :
      Effect compiler event s { s with scheduler := s.scheduler.drawNow.2 }
        s.scheduler.drawNow.1.calls
  | restyled {style : Style α} {c : Call α} (h : s.style.Restyled style c) :
      Effect compiler event s { s with style := style, scheduler := s.scheduler.request.2 }
        (c :: s.scheduler.request.1.calls)
  -- Nothing is drawn before there is a screen.
  | unseen {v : View α} (hsize : s.size = none)
      (h : s.view.Moved s.size v ∨ ∃ factor, s.view.setResolution factor = .ok v) :
      Effect compiler event s { s with view := v } []
  | looked {v : View α} {size : ScreenSize α} (hsize : s.size = some size)
      (h : s.view.Moved s.size v) :
      Effect compiler event s
        { s with
          view := v
          registry := s.registry.placeMarkers v (some size)
          scheduler := s.scheduler.request.2 }
        (.bounds (v.bounds size) :: s.scheduler.request.1.calls)
  | surfaced {v : View α} {size : ScreenSize α}
      (h : (v = s.view ∧ ScreenSize.ofSides size.width size.height = .ok size ∧
          event.resizes = true) ∨
        (s.size = some size ∧ ∃ factor, s.view.setResolution factor = .ok v)) :
      Effect compiler event s
        { s with
          size := some size
          view := v
          registry := s.registry.placeMarkers v (some size)
          scheduler := s.scheduler.request.2 }
        (v.calls size ++ s.scheduler.request.1.calls)
  | ranged {id : VariableId} {field : Field} {text : String} {r : Registry α}
      (h : s.registry.edit id field text = .ok (.range, r)) :
      Effect compiler event s { s with registry := r } []
  | revalued {r : Registry α} (h : s.registry.Revalued s.view s.size r) :
      Effect compiler event s { s with registry := r, scheduler := s.scheduler.request.2 }
        (r.slotCalls ++ s.scheduler.request.1.calls)
  | dragged {id : VariableId} {z : PlanePoint α} {size : ScreenSize α} {r : Registry α}
      {i : Nat} {e : Entry α} (hsize : s.size = some size)
      (h : s.registry.setPoint id z s.view (some size) = .ok ((), r))
      (hi : r.indexOf? id = some i) (he : r.find? id = some e) :
      Effect compiler event s { s with registry := r, scheduler := s.scheduler.request.2 }
        (.slot i e.content.value.slot :: s.scheduler.request.1.calls)
  | compiled {r : Registry α} {s' : Session α σ} {cs : List (Call α)}
      (h : s.registry.Relisted s.view s.size r)
      (hc : Compilation compiler event.wantsFrame { s with registry := r } s' cs) :
      Effect compiler event s s' cs

/-- An answer: one effect between changes on the side. -/
def Responds (compiler : Compiler) (event : Event α) (s s' : Session α σ) (cs : List (Call α)) :
    Prop :=
  ∃ s₁ s₂, s.Aside s₁ ∧ Effect compiler event s₁ s₂ cs ∧ s₂.Aside s'

variable {compiler : Compiler} {event : Event α} {s s' s'' : Session α σ} {cs : List (Call α)}

theorem Responds.of_effect (h : Effect compiler event s s' cs) :
    s.Responds compiler event s' cs :=
  ⟨s, s', Aside.refl s, h, Aside.refl s'⟩

theorem Responds.after_aside (h : s.Aside s') (h' : s'.Responds compiler event s'' cs) :
    s.Responds compiler event s'' cs := by
  obtain ⟨s₁, s₂, h₁, he, h₂⟩ := h'
  exact ⟨s₁, s₂, h.trans h₁, he, h₂⟩

theorem Responds.before_aside (h : s.Responds compiler event s' cs) (h' : s'.Aside s'') :
    s.Responds compiler event s'' cs := by
  obtain ⟨s₁, s₂, h₁, he, h₂⟩ := h
  exact ⟨s₁, s₂, h₁, he, h₂.trans h'⟩

end Session

end PlotPane
