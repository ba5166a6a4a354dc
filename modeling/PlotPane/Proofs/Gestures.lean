import PlotPane.Proofs.Refusals

/-!
# Gestures keep apart

The pointer pans the background or drags a point, and never both. What an event of the pointer can
do is said once, by the gesture that is under way. That a pan leaves the variables alone, that a
drag leaves the view and the other variables alone, and that no gesture compiles anything, is read
off from there for one event and carried along every sequence of them.
-/

namespace PlotPane

variable {α σ : Type}

namespace Event

/-- The events of the pointer on the canvas, the wheel apart. -/
def isPointer : Event α → Bool
  | .pointerDown _ _ _ | .pointerMove _ _ | .pointerUp _ _ _ | .pointerLeave => true
  | _ => false

def isMove : Event α → Bool
  | .pointerMove _ _ => true
  | _ => false

/-- The events that end every gesture. -/
def isRelease : Event α → Bool
  | .pointerUp _ _ _ | .pointerLeave => true
  | _ => false

def isPrimaryDown : Event α → Bool
  | .pointerDown _ .primary _ => true
  | _ => false

end Event

namespace Registry

/-- At most one point with the given identity has another value, with other texts and another
marker. Its name and its slot are the old ones, and every other entry is as it was. -/
def Repointed (r : Registry α) (id : VariableId) (r' : Registry α) : Prop :=
  r' = r ∨ ∃ i name z h z' h', r.entries[i]? = some ⟨id, name, .point z h⟩ ∧
    r' = { r with entries := r.entries.set i ⟨id, name, .point z' h'⟩ }

variable {r r' : Registry α} {id : VariableId}

theorem Repointed.of_setPoint [Scalar α] {z : PlanePoint α} {v : View α}
    {size : Option (ScreenSize α)} {u : Unit} (h : r.setPoint id z v size = .ok (u, r')) :
    r.Repointed id r' := by
  obtain ⟨i, e, e', hi, he, hset, rfl⟩ := update_eq_ok h
  obtain ⟨id', name, w, handle, rfl, rfl⟩ := Entry.moved_of_setPoint hset
  have hfind : r.find? id = some ⟨id', name, .point w handle⟩ := (find?_eq_getElem? hi).trans he
  obtain rfl : id' = id := id_of_find? hfind
  exact Or.inr ⟨i, name, w, handle, _, _, he, rfl⟩

end Registry

namespace Session

variable [Scalar α]

/-- What an event of the pointer does, by the gesture that it meets: the session after it and the
calls to the plotter. -/
inductive Pointed (s : Session α σ) : Event α → Session α σ → List (Call α) → Prop
  | pressed {position : ScreenPoint α} {button : Button} {modifiers : Modifiers}
      (h : button ≠ .primary) :
      Pointed s (.pointerDown position button modifiers) { s with cursor := some position } []
  | grabbed {position : ScreenPoint α} {modifiers : Modifiers} {id : VariableId}
      (h : s.registry.markerAt position s.settings.markerRadius = some id) :
      Pointed s (.pointerDown position .primary modifiers)
        { s with cursor := some position, drag := .point id } []
  | held {position : ScreenPoint α} {modifiers : Modifiers}
      (h : s.registry.markerAt position s.settings.markerRadius = none) :
      Pointed s (.pointerDown position .primary modifiers)
        { s with cursor := some position, drag := .panning position } []
  | released {position : ScreenPoint α} {button : Button} {modifiers : Modifiers} :
      Pointed s (.pointerUp position button modifiers)
        { s with cursor := some position, drag := .idle } []
  | left : Pointed s .pointerLeave { s with drag := .idle } []
  | hovered {position : ScreenPoint α} {modifiers : Modifiers} (hdrag : s.drag = .idle) :
      Pointed s (.pointerMove position modifiers) { s with cursor := some position } []
  -- The background cannot follow, or there is no screen for it.
  | stuck {last position : ScreenPoint α} {modifiers : Modifiers} (hdrag : s.drag = .panning last)
      (h : ∀ size, s.size = some size →
        ∃ err, s.view.pan ⟨position.x - last.x, position.y - last.y⟩ size = .error err) :
      Pointed s (.pointerMove position modifiers)
        { s with drag := .panning position, cursor := some position } []
  | panned {last position : ScreenPoint α} {modifiers : Modifiers} {size : ScreenSize α}
      {v : View α} (hdrag : s.drag = .panning last) (hsize : s.size = some size)
      (h : s.view.pan ⟨position.x - last.x, position.y - last.y⟩ size = .ok v) :
      Pointed s (.pointerMove position modifiers)
        { s with
          view := v
          drag := .panning position
          cursor := some position
          registry := s.registry.placeMarkers v (some size)
          scheduler := s.scheduler.request.2 }
        (.bounds (v.bounds size) :: s.scheduler.request.1.calls)
  -- There is no such point, and then the drag ends, or there is no screen for it.
  | missed {position : ScreenPoint α} {modifiers : Modifiers} {id : VariableId} {drag : Drag α}
      (hdrag : s.drag = .point id) (h : drag = .idle ∨ s.size = none ∧ drag = .point id) :
      Pointed s (.pointerMove position modifiers)
        { s with drag := drag, cursor := some position } []
  | dragged {position : ScreenPoint α} {modifiers : Modifiers} {id : VariableId}
      {size : ScreenSize α} {r : Registry α} {i : Nat} {e : Entry α}
      (hdrag : s.drag = .point id) (hsize : s.size = some size)
      (h : s.registry.setPoint id (s.view.toPlane size position) s.view (some size) = .ok ((), r))
      (hi : r.indexOf? id = some i) (he : r.find? id = some e) :
      Pointed s (.pointerMove position modifiers)
        { s with
          cursor := some position
          registry := r
          scheduler := s.scheduler.request.2 }
        (.slot i e.content.value.slot :: s.scheduler.request.1.calls)

section

variable [KeyValueStore σ] (compiler : Compiler) (s : Session α σ)

theorem pointed_pointerDown (position : ScreenPoint α) (button : Button) (modifiers : Modifiers) :
    let a := s.handle compiler (.pointerDown position button modifiers)
    s.Pointed (.pointerDown position button modifiers) a.session a.calls := by
  intro a
  by_cases hbutton : button = .primary
  · subst hbutton
    cases hhit : s.registry.markerAt position s.settings.markerRadius with
    | none =>
        have ha : a = ⟨{ s with cursor := some position, drag := .panning position }, [],
            .actions []⟩ := by
          simp [a, handle, Turn.pointerDown, Turn.setCursor, Turn.setDrag, Turn.update,
            Turn.ofSession, Turn.answer, hhit]
        rw [ha]
        exact .held hhit
    | some id =>
        have ha : a = ⟨{ s with cursor := some position, drag := .point id }, [],
            .actions []⟩ := by
          simp [a, handle, Turn.pointerDown, Turn.setCursor, Turn.setDrag, Turn.update,
            Turn.ofSession, Turn.answer, hhit]
        rw [ha]
        exact .grabbed hhit
  · have ha : a = ⟨{ s with cursor := some position }, [], .actions []⟩ := by
      simp [a, handle, Turn.pointerDown, Turn.setCursor, Turn.update, Turn.ofSession, Turn.answer,
        hbutton]
    rw [ha]
    exact .pressed hbutton

theorem pointed_pan {last : ScreenPoint α} (hdrag : s.drag = .panning last)
    (position : ScreenPoint α) (modifiers : Modifiers) :
    let a := s.handle compiler (.pointerMove position modifiers)
    s.Pointed (.pointerMove position modifiers) a.session a.calls := by
  intro a
  let begun := (Turn.ofSession s).setDrag (.panning position)
  let delta : ScreenPoint α := ⟨position.x - last.x, position.y - last.y⟩
  have ha : a = (((begun.pan delta).setCursor position).tellLabel).answer :=
    congrArg Turn.answer (Turn.pointerMove_of_panning hdrag)
  cases hsize : s.size with
  | none =>
      have hpan : begun.pan delta = begun := by
        have hbegun : begun.session.size = none := hsize
        rw [Turn.pan, hbegun]
      rw [ha, hpan]
      refine .stuck hdrag ?_
      simp [hsize]
  | some size =>
      cases hv : s.view.pan delta size with
      | error err =>
          rw [ha, begun.pan_of_error hsize hv]
          refine .stuck hdrag ?_
          intro size' hsize'
          obtain rfl := Option.some.inj (hsize.symm.trans hsize')
          exact ⟨err, hv⟩
      | ok v =>
          obtain ⟨hsession, hcalls⟩ :=
            Turn.viewChanged_of_some (t := begun.update fun s => { s with view := v }) hsize
          have hs : a.session = { s with
              view := v
              drag := .panning position
              cursor := some position
              registry := s.registry.placeMarkers v (some size)
              scheduler := s.scheduler.request.2 } := by
            rw [ha, begun.pan_of_ok hsize hv]
            exact congrArg (fun s : Session α σ => { s with cursor := some position }) hsession
          have hc : a.calls = .bounds (v.bounds size) :: s.scheduler.request.1.calls := by
            rw [ha, begun.pan_of_ok hsize hv]
            exact hcalls
          rw [hs, hc]
          exact .panned hdrag hsize hv

theorem pointed_drag {id : VariableId} (hdrag : s.drag = .point id) (position : ScreenPoint α)
    (modifiers : Modifiers) :
    let a := s.handle compiler (.pointerMove position modifiers)
    s.Pointed (.pointerMove position modifiers) a.session a.calls := by
  intro a
  have ha : a =
      ((((Turn.ofSession s).dragPoint id position).setCursor position).tellLabel).answer :=
    congrArg Turn.answer (Turn.pointerMove_of_point hdrag)
  cases hsize : s.size with
  | none =>
      rw [ha, Turn.dragPoint_of_none (t := Turn.ofSession s) hsize]
      have hmissed : s.Pointed (.pointerMove position modifiers)
          { s with drag := .point id, cursor := some position } [] :=
        .missed hdrag (Or.inr ⟨hsize, rfl⟩)
      rw [← hdrag] at hmissed
      exact hmissed
  | some size =>
      cases hset : s.registry.setPoint id (s.view.toPlane size position) s.view (some size) with
      | error err =>
          rw [ha, Turn.dragPoint_of_error (t := Turn.ofSession s) hsize hset]
          exact .missed hdrag (Or.inl rfl)
      | ok u =>
          obtain ⟨i, e, hi, he, -⟩ := Registry.slots_setPoint hset
          rw [ha, Turn.dragPoint_of_ok (t := Turn.ofSession s) hsize hset hi he]
          exact .dragged hdrag hsize hset hi he

theorem pointed_handle {e : Event α} (he : e.isPointer = true) :
    s.Pointed e (s.handle compiler e).session (s.handle compiler e).calls := by
  cases e with
  | pointerDown position button modifiers =>
      exact s.pointed_pointerDown compiler position button modifiers
  | pointerUp position button modifiers => exact .released
  | pointerLeave => exact .left
  | pointerMove position modifiers =>
      cases hdrag : s.drag with
      | idle =>
          rw [handle, Turn.pointerMove_of_idle (t := Turn.ofSession s) hdrag]
          exact .hovered hdrag
      | panning last => exact s.pointed_pan compiler hdrag position modifiers
      | point id => exact s.pointed_drag compiler hdrag position modifiers
  | _ => cases he

end

/-- What an event of the pointer leaves alone, by the gesture that it meets. -/
structure Apart (s : Session α σ) (e : Event α) (s' : Session α σ) (cs : List (Call α)) : Prop where
  still : s.drag = .idle ∨ e.isMove = false →
    cs = [] ∧ ∃ drag cursor, s' = { s with drag := drag, cursor := cursor }
  panning : ∀ last, s.drag = .panning last → e.isMove = true →
    ∃ center drag cursor registry scheduler,
      s' = { s with
        view := { s.view with center := center }
        drag := drag
        cursor := cursor
        registry := registry
        scheduler := scheduler } ∧
      registry.unmarked = s.registry.unmarked
  dragging : ∀ id, s.drag = .point id → e.isMove = true →
    ∃ drag cursor registry scheduler,
      s' = { s with
        drag := drag
        cursor := cursor
        registry := registry
        scheduler := scheduler } ∧
      s.registry.Repointed id registry
  released : e.isRelease = true → s'.drag = .idle
  begun : s.drag = .idle → e.isPrimaryDown = false → s'.drag = .idle
  kinds : s'.registry.kinds = s.registry.kinds
  names : s'.registry.names = s.registry.names
  uncompiled : ∀ c ∈ cs, c.kind ≠ .compile
  bounded : ∀ c ∈ cs, c.kind = .bounds → ∃ last, s.drag = .panning last

section

variable {s s' : Session α σ} {e : Event α} {cs : List (Call α)}

theorem Pointed.eq_of_still (h : s.Pointed e s' cs) (hstill : s.drag = .idle ∨ e.isMove = false) :
    cs = [] ∧ ∃ drag cursor, s' = { s with drag := drag, cursor := cursor } := by
  -- The cases in which more happens are moves, in the middle of a gesture.
  cases h with
  | panned hdrag hsize h => simp [hdrag, Event.isMove] at hstill
  | dragged hdrag hsize h hi he => simp [hdrag, Event.isMove] at hstill
  | _ => exact ⟨rfl, _, _, rfl⟩

theorem Pointed.eq_of_panning (h : s.Pointed e s' cs) {last : ScreenPoint α}
    (hpanning : s.drag = .panning last) (hmove : e.isMove = true) :
    ∃ center drag cursor registry scheduler,
      s' = { s with
        view := { s.view with center := center }
        drag := drag
        cursor := cursor
        registry := registry
        scheduler := scheduler } ∧
      registry.unmarked = s.registry.unmarked := by
  cases h with
  | stuck hdrag h => exact ⟨s.view.center, _, _, s.registry, s.scheduler, rfl, rfl⟩
  | panned hdrag hsize h =>
      obtain ⟨-, rfl⟩ := View.moveTo_eq_ok_iff.mp h
      exact ⟨_, _, _, _, _, rfl, Registry.unmarked_placeMarkers _ _ _⟩
  | hovered hdrag => cases hpanning.symm.trans hdrag
  | missed hdrag h => cases hpanning.symm.trans hdrag
  | dragged hdrag hsize h hi he => cases hpanning.symm.trans hdrag
  | _ => cases hmove

theorem Pointed.eq_of_point (h : s.Pointed e s' cs) {id : VariableId} (hpoint : s.drag = .point id)
    (hmove : e.isMove = true) :
    ∃ drag cursor registry scheduler,
      s' = { s with
        drag := drag
        cursor := cursor
        registry := registry
        scheduler := scheduler } ∧
      s.registry.Repointed id registry := by
  cases h with
  | missed hdrag h => exact ⟨_, _, s.registry, s.scheduler, rfl, Or.inl rfl⟩
  | dragged hdrag hsize h hi he =>
      obtain rfl := Drag.point.inj (hpoint.symm.trans hdrag)
      exact ⟨_, _, _, _, rfl, .of_setPoint h⟩
  | hovered hdrag => cases hpoint.symm.trans hdrag
  | stuck hdrag h => cases hpoint.symm.trans hdrag
  | panned hdrag hsize h => cases hpoint.symm.trans hdrag
  | _ => cases hmove

theorem Pointed.drag_of_idle (h : s.Pointed e s' cs) (hidle : s.drag = .idle)
    (he : e.isPrimaryDown = false) : s'.drag = .idle := by
  cases h with
  | pressed h => exact hidle
  | grabbed h => cases he
  | held h => cases he
  | released => rfl
  | left => rfl
  | hovered hdrag => exact hidle
  | stuck hdrag h => cases hidle.symm.trans hdrag
  | panned hdrag hsize h => cases hidle.symm.trans hdrag
  | missed hdrag h => cases hidle.symm.trans hdrag
  | dragged hdrag hsize h hi he => exact hidle

theorem Pointed.kinds_eq (h : s.Pointed e s' cs) : s'.registry.kinds = s.registry.kinds := by
  cases h with
  | panned hdrag hsize h => exact s.registry.kinds_placeMarkers _ _
  | dragged hdrag hsize h hi he =>
      exact Registry.map_entries_update (fun _ _ he => Entry.kind_setPoint he) h
  | _ => rfl

theorem Pointed.names_eq (h : s.Pointed e s' cs) : s'.registry.names = s.registry.names := by
  cases h with
  | panned hdrag hsize h => exact s.registry.names_placeMarkers _ _
  | dragged hdrag hsize h hi he => exact Registry.names_setPoint h
  | _ => rfl

/-- Besides frames, a pan has bounds for the plotter and a drag has a slot. -/
theorem Pointed.mem_calls (h : s.Pointed e s' cs) {c : Call α} (hc : c ∈ cs) :
    c.kind = .redraw ∨ c.kind = .slot ∨ c.kind = .bounds ∧ ∃ last, s.drag = .panning last := by
  cases h with
  | panned hdrag hsize h =>
      rcases List.mem_cons.mp hc with rfl | hframe
      · exact Or.inr (Or.inr ⟨rfl, _, hdrag⟩)
      · rw [Outcome.eq_redraw_of_mem_calls hframe]
        exact Or.inl rfl
  | dragged hdrag hsize h hi he =>
      rcases List.mem_cons.mp hc with rfl | hframe
      · exact Or.inr (Or.inl rfl)
      · rw [Outcome.eq_redraw_of_mem_calls hframe]
        exact Or.inl rfl
  | _ => cases hc

theorem Pointed.apart (h : s.Pointed e s' cs) : s.Apart e s' cs where
  still := h.eq_of_still
  panning last := h.eq_of_panning
  dragging id := h.eq_of_point
  released := by
    intro he
    cases h with
    | released => rfl
    | left => rfl
    | _ => cases he
  begun := h.drag_of_idle
  kinds := h.kinds_eq
  names := h.names_eq
  uncompiled := by
    intro c hc hkind
    rcases h.mem_calls hc with hredraw | hslot | ⟨hbounds, -⟩
    · cases hredraw.symm.trans hkind
    · cases hslot.symm.trans hkind
    · cases hbounds.symm.trans hkind
  bounded := by
    intro c hc hkind
    rcases h.mem_calls hc with hredraw | hslot | ⟨-, hpanning⟩
    · cases hredraw.symm.trans hkind
    · cases hslot.symm.trans hkind
    · exact hpanning

end

end Session

namespace Transcript

variable [Scalar α] [KeyValueStore σ]

theorem run_pointer_keeps (r : Transcript α σ) {steps : List (Step α)}
    (hsteps : ∀ x ∈ steps, x.event.isPointer = true) :
    (r.run steps).session.registry.kinds = r.session.registry.kinds ∧
      (r.run steps).session.registry.names = r.session.registry.names ∧
      ∃ cs, (r.run steps).calls = r.calls ++ cs ∧ ∀ c ∈ cs, c.kind ≠ .compile := by
  induction steps generalizing r with
  | nil => exact ⟨rfl, rfl, [], (List.append_nil _).symm, List.forall_mem_nil _⟩
  | cons x xs ih =>
      obtain ⟨hx, hxs⟩ := List.forall_mem_cons.mp hsteps
      have hapart := (r.session.pointed_handle x.compiler hx).apart
      obtain ⟨hkinds, hnames, cs, hcalls, hcs⟩ := ih (r.step x) hxs
      refine ⟨hkinds.trans hapart.kinds, hnames.trans hapart.names,
        (r.session.handle x.compiler x.event).calls ++ cs, ?_, ?_⟩
      · rw [run_cons, hcalls, calls_step, List.append_assoc]
      · intro c hc
        rcases List.mem_append.mp hc with hfirst | hrest
        · exact hapart.uncompiled c hfirst
        · exact hcs c hrest

/-- Gestures exclude each other. Whatever the pointer does, at every point of the sequence an event
that meets no gesture, or is no move, changes at most the gesture and the cursor; a move that pans
changes of the view its center and of the variables the places of their markers; a move that drags a
point changes that point and nothing else of the variables or the view. A release ends every gesture
and only the primary button begins one. Over the whole sequence no variable comes, goes or changes
its slot or its name, nothing is compiled, and bounds are sent in the course of a pan only. -/
theorem run_gestures_exclusive (r : Transcript α σ) (steps : List (Step α))
    (hsteps : ∀ x ∈ steps, x.event.isPointer = true) :
    (∀ before x after, steps = before ++ x :: after →
      let s := (r.run before).session
      let a := s.handle x.compiler x.event
      s.Apart x.event a.session a.calls) ∧
    (r.run steps).session.registry.kinds = r.session.registry.kinds ∧
    (r.run steps).session.registry.names = r.session.registry.names ∧
    ∃ cs, (r.run steps).calls = r.calls ++ cs ∧ ∀ c ∈ cs, c.kind ≠ .compile := by
  refine ⟨?_, r.run_pointer_keeps hsteps⟩
  intro before x after heq s a
  have hx : x ∈ steps := by simp [heq]
  exact (s.pointed_handle x.compiler (hsteps x hx)).apart

/-- A point is dragged, the primary button goes down a second time beside it, and the background is
panned and let go twice. -/
theorem run_gestures_exclusive_regrabbed :
    let accepting : Compiler := fun _ _ => .accepted
    let r : Transcript Float MemoryStore :=
      (ofSession (Session.begun ⟨[]⟩ .initial)).run
        [⟨accepting, .resize 100 100⟩, ⟨accepting, .addSlider "a" .initial⟩,
          ⟨accepting, .addPoint "b" ⟨0, 0⟩⟩]
    let down (p : ScreenPoint Float) (button : Button) : Step Float :=
      ⟨accepting, .pointerDown p button (.ofMask 0)⟩
    let move (p : ScreenPoint Float) : Step Float := ⟨accepting, .pointerMove p (.ofMask 0)⟩
    let up (p : ScreenPoint Float) : Step Float := ⟨accepting, .pointerUp p .middle (.ofMask 0)⟩
    let dragged : List (Step Float) :=
      [down ⟨0, 0⟩ .secondary, down ⟨50, 50⟩ .primary, move ⟨75, 50⟩, down ⟨10, 10⟩ .primary]
    let steps := dragged ++ move ⟨20, 10⟩ :: [up ⟨20, 10⟩, up ⟨20, 10⟩]
    (∀ x ∈ steps, x.event.isPointer = true) ∧
      (r.run dragged).session.drag = .panning ⟨10, 10⟩ ∧
      ((r.run dragged).step (move ⟨20, 10⟩)).session.view ≠ (r.run dragged).session.view ∧
      ((r.run dragged).step (move ⟨20, 10⟩)).session.registry.unmarked =
        (r.run dragged).session.registry.unmarked ∧
      (r.run steps).session.registry.names = ["a", "b"] := by
  intro accepting r down move up dragged steps
  have hsteps : ∀ x ∈ steps, x.event.isPointer = true := by
    simp [steps, dragged, down, move, up, Event.isPointer]
  have hdrag : (r.run dragged).session.drag = .panning ⟨10, 10⟩ := by decide +kernel
  have hview : ((r.run dragged).step (move ⟨20, 10⟩)).session.view ≠
      (r.run dragged).session.view := by decide +kernel
  have hnames : r.session.registry.names = ["a", "b"] := by decide +kernel
  obtain ⟨hapart, -, hkept, -⟩ := run_gestures_exclusive r steps hsteps
  obtain ⟨center, drag, cursor, registry, scheduler, hs, hunmarked⟩ :=
    (hapart dragged (move ⟨20, 10⟩) _ rfl).panning _ hdrag rfl
  refine ⟨hsteps, hdrag, hview, ?_, hkept.trans hnames⟩
  rw [step, hs]
  exact hunmarked

end Transcript

end PlotPane
