import PlotPane.Proofs.Markers

/-!
# What events ask of the registry

An event stands for at most one operation on the registry of variables, and whatever else it does to
the registry is to place markers. So the registry of a session has gone through a run of operations,
and its identities are in order until the run has added as many variables as there are identities.
-/

namespace PlotPane

variable {α σ : Type} [Scalar α]

theorem map_eq_error_iff {β γ ε : Type} {x : Except ε β} {f : β → γ} {err : ε} :
    x.map f = .error err ↔ x = .error err := by
  cases x with
  | error e => simp [Except.map]
  | ok b => simp [Except.map]

namespace Registry

/-- At most the markers are in other places. -/
def Marked (r r' : Registry α) : Prop :=
  r' = r ∨ ∃ v size, r' = r.placeMarkers v size

variable {r r' r'' : Registry α}

theorem Marked.refl (r : Registry α) : r.Marked r :=
  Or.inl rfl

theorem Marked.trans (h : r.Marked r') (h' : r'.Marked r'') : r.Marked r'' := by
  rcases h with rfl | ⟨v, size, rfl⟩
  · exact h'
  · rcases h' with rfl | ⟨v', size', rfl⟩
    · exact Or.inr ⟨v, size, rfl⟩
    · -- Only the last place counts.
      refine Or.inr ⟨v', size', ?_⟩
      simp only [placeMarkers, List.map_map, Function.comp_def, Content.placeMarker_placeMarker]

theorem Marked.kinds_eq (h : r.Marked r') : r'.kinds = r.kinds := by
  rcases h with rfl | ⟨v, size, rfl⟩
  · rfl
  · exact r.kinds_placeMarkers v size

theorem Marked.counted (h : r.Marked r') {n : Nat} (hr : r.Counted n) : r'.Counted n := by
  rcases h with rfl | ⟨v, size, rfl⟩
  · exact hr
  · exact (r.performed (.placeMarkers v size)).counted hr

end Registry

namespace Session

/-- The gesture goes on, and the variables are as they were but for the places of their markers. -/
structure Steady (s s' : Session α σ) : Prop where
  drag : s'.drag = s.drag
  registry : s.registry.Marked s'.registry

theorem Steady.refl (s : Session α σ) : s.Steady s :=
  ⟨rfl, .refl _⟩

theorem Steady.trans {s s' s'' : Session α σ} (h : s.Steady s') (h' : s'.Steady s'') :
    s.Steady s'' :=
  ⟨h'.drag.trans h.drag, h.registry.trans h'.registry⟩

end Session

namespace Turn

variable {t t' : Turn α σ}

theorem steady_compile (compiler : Compiler) (explicit : Bool) (t : Turn α σ) :
    t.session.Steady (t.compile compiler explicit).session := by
  obtain ⟨error, scheduler, heq⟩ := compile_eq_with compiler explicit t
  rw [heq]
  exact ⟨rfl, .refl _⟩

theorem steady_viewChanged {s : Session α σ} (h : s.Steady t.session) :
    s.Steady t.viewChanged.session := by
  cases hsize : t.session.size with
  | none =>
      rw [viewChanged_of_none hsize]
      exact h
  | some size =>
      rw [(viewChanged_of_some hsize).1]
      exact h.trans ⟨rfl, Or.inr ⟨_, _, rfl⟩⟩

theorem steady_callSurface {s : Session α σ} (h : s.Steady t.session) :
    s.Steady t.callSurface.session := by
  rw [session_callSurface]
  exact h

theorem steady_setView (v : View α) (t : Turn α σ) :
    t.session.Steady (t.update fun s => { s with view := v }).session :=
  ⟨rfl, .refl _⟩

theorem steady_resize (width height : α) (t : Turn α σ) :
    t.session.Steady (t.resize width height).session := by
  rw [resize]
  cases ScreenSize.ofSides width height with
  | error err => exact .refl _
  | ok size =>
      have hsized : t.session.Steady (t.update fun s => { s with size := some size }).session :=
        ⟨rfl, .refl _⟩
      exact steady_viewChanged (steady_callSurface hsized)

theorem steady_setResolution (exponent : α) (t : Turn α σ) :
    t.session.Steady (t.setResolution exponent).session := by
  rw [setResolution]
  cases t.session.view.setResolution (Scalar.exp2 exponent) with
  | error err => exact .refl _
  | ok v => exact steady_viewChanged (steady_callSurface (steady_setView v t))

theorem steady_resetView (t : Turn α σ) : t.session.Steady t.resetView.session := by
  rw [resetView]
  cases t.session.view.reset t.session.settings.defaultScale with
  | error err => exact .refl _
  | ok v => exact steady_viewChanged (steady_setView v t)

theorem steady_pan (delta : ScreenPoint α) (t : Turn α σ) :
    t.session.Steady (t.pan delta).session := by
  rw [pan]
  cases t.session.size with
  | none => exact .refl _
  | some size =>
      simp only
      cases t.session.view.pan delta size with
      | error err => exact .refl _
      | ok v => exact steady_viewChanged (steady_setView v t)

theorem steady_wheel (position : ScreenPoint α) (delta : WheelDelta α) (t : Turn α σ) :
    t.session.Steady (t.wheel position delta).session := by
  have hseen : t.session.Steady (t.setCursor position).session := ⟨rfl, .refl _⟩
  refine hseen.trans ?_
  rw [wheel]
  cases (t.setCursor position).session.size with
  | none => exact .refl _
  | some size =>
      simp only
      cases (t.setCursor position).session.view.zoom position delta.dy
          (t.setCursor position).session.settings.zoomRate size with
      | error err => exact .refl _
      | ok u => exact steady_viewChanged (steady_setView u.2 _)

theorem registry_pointerDown (position : ScreenPoint α) (button : Button) (t : Turn α σ) :
    (t.pointerDown position button).session.registry = t.session.registry := by
  rw [pointerDown]
  split
  · cases (t.setCursor position).session.registry.markerAt position
        (t.setCursor position).session.settings.markerRadius <;> rfl
  · rfl

theorem registry_addSlider (compiler : Compiler) (name : String) (x : Slider α) (t : Turn α σ) :
    (t.addSlider compiler name x).session.registry =
      t.session.registry.perform (.addSlider name x) := by
  rw [addSlider, Registry.perform]
  cases t.session.registry.addSlider name x with
  | none => rfl
  | some u => exact registry_compile compiler false _

theorem marked_addPoint (compiler : Compiler) (name : String) (z : PlanePoint α) (t : Turn α σ) :
    (t.session.registry.perform (.addPoint name z)).Marked
      (t.addPoint compiler name z).session.registry := by
  rw [addPoint, Registry.perform]
  cases t.session.registry.addPoint name z with
  | none => exact .refl _
  | some u =>
      simp only [registry_compile]
      exact Or.inr ⟨_, _, rfl⟩

theorem registry_removeVariable (compiler : Compiler) (id : VariableId) (t : Turn α σ) :
    (t.removeVariable compiler id).session.registry =
      t.session.registry.perform (.remove id) := by
  rw [removeVariable, Registry.perform]
  cases t.session.registry.remove id with
  | none => rfl
  | some u => exact registry_compile compiler false _

theorem marked_editVariable {compiler : Compiler} {id : VariableId} {field : Field} {text : String}
    (h : t.editVariable compiler id field text = .ok t') :
    (t.session.registry.perform (.edit id field text)).Marked t'.session.registry := by
  obtain ⟨⟨kind, r⟩, hr, rfl⟩ := map_eq_ok_iff.mp h
  rw [Registry.perform, hr]
  cases kind with
  | name =>
      simp only [registry_compile]
      exact .refl r
  | value => exact Or.inr ⟨_, _, rfl⟩
  | range => exact .refl r

theorem registry_slideVariable {id : VariableId} {raw : α} (h : t.slideVariable id raw = .ok t') :
    t'.session.registry = t.session.registry.perform (.slide id raw) := by
  obtain ⟨u, hr, rfl⟩ := map_eq_ok_iff.mp h
  rw [Registry.perform, hr]
  rfl

theorem registry_dragPoint {id : VariableId} {position : ScreenPoint α} {size : ScreenSize α}
    (hsize : t.session.size = some size) :
    (t.dragPoint id position).session.registry = t.session.registry.perform
      (.setPoint id (t.session.view.toPlane size position) t.session.view (some size)) := by
  rw [Registry.perform]
  cases hp : t.session.registry.setPoint id (t.session.view.toPlane size position)
      t.session.view (some size) with
  | error err =>
      rw [dragPoint_of_error hsize hp]
      rfl
  | ok u =>
      obtain ⟨i, e, hi, he, -⟩ := Registry.slots_setPoint hp
      rw [dragPoint_of_ok hsize hp hi he]
      rfl

theorem steady_start (compiler : Compiler) (width height : α) (t : Turn α σ) :
    t.session.Steady (t.start compiler width height).session := by
  let styled := (t.call t.session.style.calls).tell [.themeChanged t.session.theme]
  have hresize : t.session.Steady (styled.resize width height).session :=
    steady_resize width height styled
  exact hresize.trans (steady_compile compiler true _)

end Turn

/-- The events that neither come from the pointer on the canvas nor are about one variable. -/
def Event.isCalm : Event α → Bool
  | .pointerDown _ _ _ | .pointerMove _ _ | .pointerUp _ _ _ | .pointerLeave
  | .addSlider _ _ | .addPoint _ _ | .removeVariable _ | .editVariable _ _ _
  | .slideVariable _ _ => false
  | _ => true

def Event.adds : Event α → Bool
  | .addSlider _ _ | .addPoint _ _ => true
  | _ => false

namespace Session

/-- The operation on the registry that an event stands for. -/
def request? (s : Session α σ) : Event α → Option (Registry.Operation α)
  | .pointerMove position _ =>
    match s.drag, s.size with
    | .point id, some size =>
      some (.setPoint id (s.view.toPlane size position) s.view (some size))
    | _, _ => none
  | .addSlider name x => some (.addSlider name x)
  | .addPoint name z => some (.addPoint name z)
  | .removeVariable id => some (.remove id)
  | .editVariable id field text => some (.edit id field text)
  | .slideVariable id raw => some (.slide id raw)
  | _ => none

theorem length_issued_request (s : Session α σ) (e : Event α) :
    (s.registry.issued (s.request? e).toList).length =
      if e.adds && !s.registry.isFull then 1 else 0 := by
  have hpush (name : String) (c : Content α) :
      ((s.registry.push name c).map Prod.fst).toList.length =
        if !s.registry.isFull then 1 else 0 := by
    cases hfull : s.registry.isFull <;> simp [Registry.push, hfull]
  cases e with
  | addSlider name x =>
      simpa [request?, Registry.issued, Registry.issued?, Registry.addSlider, Event.adds] using
        hpush name _
  | addPoint name z =>
      simpa [request?, Registry.issued, Registry.issued?, Registry.addPoint, Event.adds] using
        hpush name _
  | pointerMove position modifiers =>
      rw [request?]
      split <;> rfl
  | _ => rfl

variable [KeyValueStore σ] (compiler : Compiler) (s : Session α σ)

theorem steady_handle {e : Event α} (he : e.isCalm = true) :
    s.Steady (s.handle compiler e).session := by
  cases e with
  | start width height => exact Turn.steady_start compiler width height (Turn.ofSession s)
  | resize width height => exact Turn.steady_resize width height (Turn.ofSession s)
  | setResolution exponent => exact Turn.steady_setResolution exponent (Turn.ofSession s)
  | resetView => exact Turn.steady_resetView (Turn.ofSession s)
  | wheel position delta modifiers => exact Turn.steady_wheel position delta (Turn.ofSession s)
  | keyDown key modifiers =>
      rw [handle, Turn.keyDown]
      split <;> exact ⟨rfl, .refl _⟩
  | setSource source =>
      rw [handle, setSource]
      split <;> exact ⟨rfl, .refl _⟩
  | graph => exact Turn.steady_compile compiler true (Turn.ofSession s)
  | pointerDown position button modifiers => cases he
  | pointerMove position modifiers => cases he
  | pointerUp position button modifiers => cases he
  | pointerLeave => cases he
  | addSlider name x => cases he
  | addPoint name z => cases he
  | removeVariable id => cases he
  | editVariable id field text => cases he
  | slideVariable id raw => cases he
  | _ => exact ⟨rfl, .refl _⟩

/-- An event changes the registry by the operation that it stands for, and then at most places the
markers anew. -/
theorem marked_handle (e : Event α) :
    (s.registry.run (s.request? e).toList).Marked (s.handle compiler e).session.registry := by
  cases e with
  | pointerDown position button modifiers =>
      exact Or.inl (Turn.registry_pointerDown position button (Turn.ofSession s))
  | pointerMove position modifiers =>
      -- The cursor and the label, which follow the drag, are not in the registry.
      rw [handle, request?]
      cases hdrag : s.drag with
      | idle =>
          rw [Turn.pointerMove_of_idle (t := Turn.ofSession s) hdrag]
          exact .refl _
      | panning last =>
          rw [Turn.pointerMove_of_panning (t := Turn.ofSession s) hdrag]
          have hpan := Turn.steady_pan ⟨position.x - last.x, position.y - last.y⟩
            ((Turn.ofSession s).setDrag (.panning position))
          exact hpan.registry
      | point id =>
          rw [Turn.pointerMove_of_point (t := Turn.ofSession s) hdrag]
          cases hsize : s.size with
          | none =>
              rw [Turn.dragPoint_of_none (t := Turn.ofSession s) hsize]
              exact .refl _
          | some size => exact Or.inl (Turn.registry_dragPoint hsize)
  | pointerUp position button modifiers => exact .refl _
  | pointerLeave => exact .refl _
  | addSlider name x =>
      exact Or.inl (Turn.registry_addSlider compiler name x (Turn.ofSession s))
  | addPoint name z => exact Turn.marked_addPoint compiler name z (Turn.ofSession s)
  | removeVariable id =>
      exact Or.inl (Turn.registry_removeVariable compiler id (Turn.ofSession s))
  | editVariable id field text =>
      rw [handle]
      cases ht : (Turn.ofSession s).editVariable compiler id field text with
      | error err =>
          have hr : s.registry.edit id field text = .error err := map_eq_error_iff.mp ht
          exact Or.inl (by simp [answerOr, request?, Registry.perform, hr, Except.toOption])
      | ok t => exact Turn.marked_editVariable ht
  | slideVariable id raw =>
      rw [handle]
      cases ht : (Turn.ofSession s).slideVariable id raw with
      | error err =>
          have hr : s.registry.slide id raw = .error err := map_eq_error_iff.mp ht
          exact Or.inl (by simp [answerOr, request?, Registry.perform, hr, Except.toOption])
      | ok t => exact Or.inl (Turn.registry_slideVariable ht)
  | _ => exact (s.steady_handle compiler rfl).registry

theorem counted_handle (e : Event α) {n : Nat} (h : s.registry.Counted n) :
    (s.handle compiler e).session.registry.Counted
      (n + if e.adds && !s.registry.isFull then 1 else 0) := by
  have hrun := h.run (s.request? e).toList
  rw [length_issued_request] at hrun
  exact (s.marked_handle compiler e).counted hrun

end Session

namespace Transcript

variable [KeyValueStore σ]

/-- How many of the events add a variable: those that ask for one while a slot is free. -/
def additions (r : Transcript α σ) : List (Step α) → Nat
  | [] => 0
  | x :: xs =>
    (if x.event.adds && !r.session.registry.isFull then 1 else 0) + (r.step x).additions xs

theorem counted_run {r : Transcript α σ} {n : Nat} (h : r.session.registry.Counted n)
    (steps : List (Step α)) :
    (r.run steps).session.registry.Counted (n + r.additions steps) := by
  induction steps generalizing r n with
  | nil => exact h
  | cons x xs ih =>
      have hstep : (r.step x).session.registry.Counted _ :=
        r.session.counted_handle x.compiler x.event h
      have hrest := ih hstep
      rw [additions, ← Nat.add_assoc]
      exact hrest

theorem ordered_run {store : σ} {settings : Settings α} {steps : List (Step α)}
    (hadds : (ofSession (Session.begun store settings)).additions steps < UInt32.size) :
    ((ofSession (Session.begun store settings)).run steps).session.registry.Ordered := by
  have hbegun : (ofSession (Session.begun store settings)).session.registry.Counted 0 :=
    Registry.counted_empty
  have hrun := counted_run hbegun steps
  rw [Nat.zero_add] at hrun
  exact hrun.ordered hadds

end Transcript

end PlotPane
