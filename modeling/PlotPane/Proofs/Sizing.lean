import PlotPane.Proofs.Requests
import PlotPane.Proofs.SlotMirror
import PlotPane.Proofs.ViewMirror

/-!
# When the screen comes does not matter

Before the canvas has a size much of what an event does is left out: there is nothing to place and
nothing to show. All of it is made up for when the size comes. To see this, a session is compared
with what is left of it when nothing about the screen counts. An event that does not come from the
canvas acts on that rest alone, and the size of the screen does not touch it. So the size may come
at any time.
-/

namespace PlotPane

variable {α β σ : Type}

/-- The events that do not come from the canvas. -/
def Event.isOffCanvas : Event α → Bool
  | .start _ _ | .resize _ _ | .pointerDown _ _ _ | .pointerMove _ _ | .pointerUp _ _ _
  | .pointerLeave | .wheel _ _ _ => false
  | _ => true

theorem Event.resizes_of_isOffCanvas {e : Event α} (h : e.isOffCanvas = true) :
    e.resizes = false := by
  cases e with
  | start width height => cases h
  | resize width height => cases h
  | _ => rfl

/-- A reply without what the page is told to show. -/
def Reply.bare : Reply α → Reply α
  | .actions _ => .actions []
  | reply => reply

/-- The calls that compile something. -/
def Call.compilations (cs : List (Call α)) : List (Call α) :=
  cs.filter fun c => c.kind = .compile

/-- What is left of a session if nothing about the screen counts. -/
def Session.unsized (s : Session α σ) : Session α σ :=
  { s with
    size := none
    registry := s.registry.unmarked
    scheduler := { s.scheduler with pending := false } }

def Turn.unsized (t : Turn α σ) : Turn α σ :=
  ⟨t.session.unsized, Call.compilations t.calls, []⟩

def Answer.unsized (a : Answer α σ) : Answer α σ :=
  ⟨a.session.unsized, Call.compilations a.calls, a.reply.bare⟩

/-- A request for a frame does not ask whether one is pending, and settles nothing else. -/
structure Scheduler.IgnoresPending (request : Scheduler → Outcome × Scheduler) : Prop where
  outcome : ∀ x : Scheduler, (request { x with pending := false }).1 = (request x).1
  after : ∀ x, { (request x).2 with pending := false } = { x with pending := false }

theorem Scheduler.ignoresPending_request : IgnoresPending request := by
  constructor <;> rintro ⟨auto, ready, pending⟩ <;> cases auto <;> cases ready <;> rfl

theorem Scheduler.ignoresPending_drawNow : IgnoresPending drawNow := by
  constructor <;> rintro ⟨auto, ready, pending⟩ <;> cases ready <;> rfl

namespace Call

theorem compilations_append (cs ds : List (Call α)) :
    compilations (cs ++ ds) = compilations cs ++ compilations ds :=
  List.filter_append ..

theorem compilations_of_none {cs : List (Call α)} (h : ∀ c ∈ cs, c.kind ≠ .compile) :
    compilations cs = [] := by
  rw [compilations, List.filter_eq_nil_iff]
  intro c hc
  simpa using h c hc

@[simp] theorem compilations_compilations (cs : List (Call α)) :
    compilations (compilations cs) = compilations cs := by
  simp [compilations]

theorem lastOf_names?_compilations (cs : List (Call α)) :
    lastOf names? (compilations cs) = lastOf names? cs := by
  rw [lastOf, lastOf, compilations, List.filterMap_filter]
  refine congrArg List.getLast? (List.filterMap_congr ?_)
  intro c hc
  cases c <;> rfl

end Call

namespace Registry

variable (r : Registry α)

@[simp] theorem unmarked_unmarked : r.unmarked.unmarked = r.unmarked := by
  have hcontent (c : Content α) : c.unmarked.unmarked = c.unmarked := by cases c <;> rfl
  simp only [unmarked, List.map_map, Function.comp_def, Entry.unmarked, hcontent]
  rfl

@[simp] theorem names_unmarked : r.unmarked.names = r.names := by
  rw [names, unmarked, List.map_map]
  rfl

theorem push_unmarked (name : String) {c : Content α} (hc : c.unmarked = c) :
    r.unmarked.push name c = (r.push name c).map fun u => (u.1, u.2.unmarked) := by
  have hfull : r.unmarked.isFull = r.isFull := by simp [isFull, unmarked]
  rw [push, push, hfull]
  cases r.isFull with
  | true => rfl
  | false => simp [unmarked, Entry.unmarked, hc]

theorem remove_unmarked (id : VariableId) :
    r.unmarked.remove id = (r.remove id).map fun u => (u.1, u.2.unmarked) := by
  have hvariable (e : Entry α) : e.unmarked.toVariable = e.toVariable := by
    obtain ⟨id, name, content⟩ := e
    cases content <;> rfl
  have hfind : r.unmarked.find? id = (r.find? id).map Entry.unmarked := List.find?_map ..
  have herase : (r.entries.map Entry.unmarked).eraseP (fun e => e.id == id) =
      (r.entries.eraseP fun e => e.id == id).map Entry.unmarked := List.eraseP_map ..
  rw [remove, remove, hfind]
  cases r.find? id with
  | none => rfl
  | some e => simp [hvariable, unmarked, herase]

theorem updateEntries_unmarked {f : Entry α → Except VariableError (β × Entry α)}
    (hf : ∀ e, f e.unmarked = (f e).map fun u => (u.1, u.2.unmarked)) (id : VariableId)
    (es : List (Entry α)) :
    updateEntries id f (es.map Entry.unmarked) =
      (updateEntries id f es).map fun u => (u.1, u.2.map Entry.unmarked) := by
  induction es with
  | nil => rfl
  | cons e es ih =>
      have hid : e.unmarked.id = e.id := rfl
      rw [List.map_cons, updateEntries, updateEntries, hid]
      by_cases he : e.id = id
      · rw [if_pos he, if_pos he, hf]
        cases f e <;> rfl
      · rw [if_neg he, if_neg he, ih]
        cases updateEntries id f es <;> rfl

theorem update_unmarked {f : Entry α → Except VariableError (β × Entry α)}
    (hf : ∀ e, f e.unmarked = (f e).map fun u => (u.1, u.2.unmarked)) (id : VariableId) :
    r.unmarked.update id f = (r.update id f).map fun u => (u.1, u.2.unmarked) := by
  rw [update, update, unmarked, updateEntries_unmarked hf]
  cases updateEntries id f r.entries <;> rfl

end Registry

@[simp] theorem Session.unsized_unsized (s : Session α σ) : s.unsized.unsized = s.unsized := by
  simp [unsized]

namespace Turn

variable {t : Turn α σ}

@[simp] theorem unsized_tell (t : Turn α σ) (as : List (Action α)) :
    (t.tell as).unsized = t.unsized := rfl

@[simp] theorem unsized_tellMarker (t : Turn α σ) (id : VariableId) :
    (t.tellMarker id).unsized = t.unsized := rfl

@[simp] theorem unsized_tellAdded (t : Turn α σ) (id : VariableId) :
    (t.tellAdded id).unsized = t.unsized := rfl

theorem unsized_call {cs : List (Call α)} (h : ∀ c ∈ cs, c.kind ≠ .compile) :
    (t.call cs).unsized = t.unsized := by
  simp [unsized, call, Call.compilations_append, Call.compilations_of_none h]

theorem unsized_update {f g : Session α σ → Session α σ}
    (h : (f t.session).unsized = (g t.session.unsized).unsized) :
    (t.update f).unsized = (t.unsized.update g).unsized := by
  simp [unsized, update, h]

/-- Whether a frame is pending does not count, and a frame compiles nothing. -/
theorem unsized_draw {request : Scheduler → Outcome × Scheduler}
    (h : Scheduler.IgnoresPending request) (t : Turn α σ) :
    (t.draw request).unsized = t.unsized := by
  have hcalls (o : Outcome) : ∀ c ∈ (o.calls : List (Call α)), c.kind ≠ .compile := by
    intro c hc
    rw [Outcome.eq_redraw_of_mem_calls hc]
    simp [Call.kind]
  rw [draw, unsized_call (hcalls _)]
  simp [unsized, update, Session.unsized, h.after]

@[simp] theorem unsized_requestRedraw (t : Turn α σ) : t.requestRedraw.unsized = t.unsized :=
  unsized_draw Scheduler.ignoresPending_request t

@[simp] theorem unsized_drawNow (t : Turn α σ) : t.drawNow.unsized = t.unsized :=
  unsized_draw Scheduler.ignoresPending_drawNow t

@[simp] theorem unsized_unsized (t : Turn α σ) : t.unsized.unsized = t.unsized := by
  simp [unsized]

theorem unsized_setTheme [KeyValueStore σ] (theme : Theme) (t : Turn α σ) :
    (t.setTheme theme).unsized = (t.unsized.setTheme theme).unsized := by
  rw [setTheme, setTheme, unsized_tell, unsized_tell]
  exact unsized_update (by simp [Session.unsized])

end Turn

namespace Session

variable (s : Session α σ)

theorem unsized_drawAnswer {request : Scheduler → Outcome × Scheduler}
    (h : Scheduler.IgnoresPending request) (cs : List (Call α)) :
    (s.drawAnswer cs request).unsized =
      ⟨s.unsized, Call.compilations cs, .outcome (request s.unsized.scheduler).1⟩ := by
  have hturn := Turn.unsized_draw h ((Turn.ofSession s).call cs)
  have hsession := congrArg Turn.session hturn
  have hcalls := congrArg Turn.calls hturn
  have houtcome : (request s.unsized.scheduler).1 = (request s.scheduler).1 :=
    h.outcome s.scheduler
  rw [houtcome]
  simp only [drawAnswer, Answer.unsized, Answer.mk.injEq]
  exact ⟨hsession, hcalls, rfl⟩

theorem unsized_restyle (style : Style α) (c : Call α) :
    (s.restyle style c).unsized = (s.unsized.restyle style c).unsized := by
  rw [restyle, restyle, unsized_drawAnswer _ Scheduler.ignoresPending_request,
    unsized_drawAnswer _ Scheduler.ignoresPending_request]
  simp [unsized]

theorem unsized_answerOr {x y : Except VariableError (Turn α σ)}
    (h : x.map Turn.unsized = y.map Turn.unsized) :
    (s.answerOr x).unsized = (s.unsized.answerOr y).unsized := by
  cases x with
  | error err =>
      obtain rfl := map_eq_error_iff.mp h.symm
      simp [answerOr, Answer.unsized]
  | ok t =>
      obtain ⟨t', rfl, ht⟩ := map_eq_ok_iff.mp h.symm
      exact congrArg Turn.answer ht.symm

theorem unsized_setSource [KeyValueStore σ] (source : String) :
    (s.setSource source).unsized = (s.unsized.setSource source).unsized := by
  have hsource : s.unsized.source = s.source := rfl
  rw [setSource, setSource, hsource]
  split
  · exact (unsized_unsized s).symm
  · simp [unsized]

end Session

variable [Scalar α]

namespace Registry

variable (r : Registry α) (id : VariableId)

theorem edit_unmarked (field : Field) (text : String) :
    r.unmarked.edit id field text =
      (r.edit id field text).map fun u => (u.1, u.2.unmarked) := by
  refine update_unmarked r ?_ id
  rintro ⟨id, name, content⟩
  cases content <;> cases field <;> rfl

theorem slide_unmarked (raw : α) :
    r.unmarked.slide id raw = (r.slide id raw).map fun u => (u.1, u.2.unmarked) := by
  refine update_unmarked r ?_ id
  rintro ⟨id, name, content⟩
  cases content <;> rfl

theorem kind_slotCalls {c : Call α} (h : c ∈ r.slotCalls) : c.kind ≠ .compile := by
  obtain ⟨s, -, rfl⟩ := List.mem_map.mp h
  simp [Call.kind]

end Registry

namespace Turn

variable {t t' : Turn α σ}

@[simp] theorem unsized_tellLabel (t : Turn α σ) : t.tellLabel.unsized = t.unsized := rfl

@[simp] theorem unsized_tellSlider (t : Turn α σ) (id : VariableId) :
    (t.tellSlider id).unsized = t.unsized := rfl

@[simp] theorem unsized_callSlots (t : Turn α σ) : t.callSlots.unsized = t.unsized :=
  unsized_call fun _ hc => t.session.registry.kind_slotCalls hc

@[simp] theorem unsized_placeMarkers (t : Turn α σ) : t.placeMarkers.unsized = t.unsized := by
  simp [unsized, placeMarkers, update, Session.unsized]

@[simp] theorem unsized_callSurface (t : Turn α σ) : t.callSurface.unsized = t.unsized := by
  cases hsize : t.session.size with
  | none => rw [callSurface_of_none hsize]
  | some size =>
      rw [callSurface_of_some hsize]
      exact unsized_call (by simp [Call.kind])

@[simp] theorem unsized_viewChanged (t : Turn α σ) : t.viewChanged.unsized = t.unsized := by
  cases hsize : t.session.size with
  | none => rw [viewChanged_of_none hsize]
  | some size =>
      simp only [viewChanged, hsize, unsized_requestRedraw, unsized_tell, unsized_placeMarkers]
      exact unsized_call (by simp [Call.kind])

theorem unsized_sent {f : Session α σ → Session α σ}
    (hf : (f t.session).unsized = (f t.session.unsized).unsized) (source : String)
    (names : List String) :
    ((t.callSlots.call [.compile source names]).update f).unsized =
      ((t.unsized.callSlots.call [.compile source names]).update f).unsized := by
  have hslots (r : Registry α) : Call.compilations r.slotCalls = [] :=
    Call.compilations_of_none fun _ hc => r.kind_slotCalls hc
  simp [unsized, update, call, callSlots, Call.compilations_append, hslots, hf]

/-- A compilation reads the source and the names, and nothing about the screen. -/
theorem unsized_compile (compiler : Compiler) (explicit : Bool) (t : Turn α σ) :
    (t.compile compiler explicit).unsized = (t.unsized.compile compiler explicit).unsized := by
  have hsource : t.unsized.session.source = t.session.source := rfl
  have hnames : t.unsized.session.registry.names = t.session.registry.names :=
    t.session.registry.names_unmarked
  simp only [compile, hsource, hnames]
  cases compiler t.session.source t.session.registry.names with
  | accepted =>
      cases explicit with
      | true =>
          simp only [if_true, unsized_drawNow, unsized_tell]
          exact unsized_sent (by simp [Session.unsized, Scheduler.setReady]) _ _
      | false =>
          simp only [Bool.false_eq_true, if_false, unsized_requestRedraw, unsized_tell]
          exact unsized_sent (by simp [Session.unsized, Scheduler.setReady]) _ _
  | rejected message =>
      simp only [unsized_tell]
      exact unsized_sent (by simp [Session.unsized, Scheduler.setReady]) _ _

theorem unsized_compile_congr (compiler : Compiler) (explicit : Bool)
    (h : t.unsized = t'.unsized) :
    (t.compile compiler explicit).unsized = (t'.compile compiler explicit).unsized := by
  rw [unsized_compile, h, ← unsized_compile]

theorem unsized_setResolution (exponent : α) (t : Turn α σ) :
    (t.setResolution exponent).unsized = (t.unsized.setResolution exponent).unsized := by
  have hview : t.unsized.session.view = t.session.view := rfl
  rw [setResolution, setResolution, hview]
  cases t.session.view.setResolution (Scalar.exp2 exponent) with
  | error err => exact (unsized_unsized t).symm
  | ok v =>
      simp only [unsized_viewChanged, unsized_callSurface]
      exact unsized_update (by simp [Session.unsized])

theorem unsized_resetView (t : Turn α σ) : t.resetView.unsized = t.unsized.resetView.unsized := by
  have hview : t.unsized.session.view = t.session.view := rfl
  have hsettings : t.unsized.session.settings = t.session.settings := rfl
  rw [resetView, resetView, hview, hsettings]
  cases t.session.view.reset t.session.settings.defaultScale with
  | error err => exact (unsized_unsized t).symm
  | ok v =>
      simp only [unsized_tellLabel, unsized_viewChanged]
      exact unsized_update (by simp [Session.unsized])

theorem unsized_addSlider (compiler : Compiler) (name : String) (x : Slider α) (t : Turn α σ) :
    (t.addSlider compiler name x).unsized = (t.unsized.addSlider compiler name x).unsized := by
  have hpush : t.unsized.session.registry.addSlider name x =
      (t.session.registry.addSlider name x).map fun u => (u.1, u.2.unmarked) :=
    t.session.registry.push_unmarked name rfl
  rw [addSlider, addSlider, hpush]
  cases t.session.registry.addSlider name x with
  | none => exact (unsized_unsized t).symm
  | some u =>
      refine unsized_compile_congr compiler false ?_
      simp only [unsized_tellAdded]
      exact unsized_update (by simp [Session.unsized])

theorem unsized_addPoint (compiler : Compiler) (name : String) (z : PlanePoint α) (t : Turn α σ) :
    (t.addPoint compiler name z).unsized = (t.unsized.addPoint compiler name z).unsized := by
  have hpush : t.unsized.session.registry.addPoint name z =
      (t.session.registry.addPoint name z).map fun u => (u.1, u.2.unmarked) :=
    t.session.registry.push_unmarked name rfl
  rw [addPoint, addPoint, hpush]
  cases t.session.registry.addPoint name z with
  | none => exact (unsized_unsized t).symm
  | some u =>
      refine unsized_compile_congr compiler false ?_
      simp only [unsized_tellMarker, unsized_tellAdded, unsized_placeMarkers]
      exact unsized_update (by simp [Session.unsized])

theorem unsized_removeVariable (compiler : Compiler) (id : VariableId) (t : Turn α σ) :
    (t.removeVariable compiler id).unsized =
      (t.unsized.removeVariable compiler id).unsized := by
  have hremove : t.unsized.session.registry.remove id =
      (t.session.registry.remove id).map fun u => (u.1, u.2.unmarked) :=
    t.session.registry.remove_unmarked id
  have hdrag : t.unsized.session.drag = t.session.drag := rfl
  rw [removeVariable, removeVariable, hremove, hdrag]
  cases t.session.registry.remove id with
  | none => exact (unsized_unsized t).symm
  | some u =>
      refine unsized_compile_congr compiler false ?_
      simp only [unsized_tell]
      exact unsized_update (by simp [Session.unsized])

theorem unsized_editVariable (compiler : Compiler) (id : VariableId) (field : Field)
    (text : String) (t : Turn α σ) :
    (t.editVariable compiler id field text).map unsized =
      (t.unsized.editVariable compiler id field text).map unsized := by
  have hedit : t.unsized.session.registry.edit id field text =
      (t.session.registry.edit id field text).map fun u => (u.1, u.2.unmarked) :=
    t.session.registry.edit_unmarked id field text
  rw [editVariable, editVariable, hedit]
  cases t.session.registry.edit id field text with
  | error err => rfl
  | ok u =>
      obtain ⟨kind, r⟩ := u
      have hedited : (t.update fun s => { s with registry := r }).unsized =
          (t.unsized.update fun s => { s with registry := r.unmarked }).unsized :=
        unsized_update (by simp [Session.unsized])
      refine congrArg Except.ok ?_
      cases kind with
      | name => exact unsized_compile_congr compiler false hedited
      | value => simpa using hedited
      | range => exact hedited

theorem unsized_slideVariable (id : VariableId) (raw : α) (t : Turn α σ) :
    (t.slideVariable id raw).map unsized = (t.unsized.slideVariable id raw).map unsized := by
  have hslide : t.unsized.session.registry.slide id raw =
      (t.session.registry.slide id raw).map fun u => (u.1, u.2.unmarked) :=
    t.session.registry.slide_unmarked id raw
  rw [slideVariable, slideVariable, hslide]
  cases t.session.registry.slide id raw with
  | error err => rfl
  | ok u =>
      have hslid : (t.update fun s => { s with registry := u.2 }).unsized =
          (t.unsized.update fun s => { s with registry := u.2.unmarked }).unsized :=
        unsized_update (by simp [Session.unsized])
      refine congrArg Except.ok ?_
      simpa using hslid

/-- The size of the screen itself leaves the rest alone. -/
theorem unsized_resize (width height : α) (t : Turn α σ) :
    (t.resize width height).unsized = t.unsized := by
  rw [resize]
  cases ScreenSize.ofSides width height with
  | error err => rfl
  | ok size =>
      simp only [unsized_tellLabel, unsized_viewChanged, unsized_callSurface]
      rfl

end Turn

namespace Session

variable (s : Session α σ)

variable [KeyValueStore σ] (compiler : Compiler) {e : Event α}

/-- What an event that does not come from the canvas does, it does to what is left of the session
when nothing about the screen counts. -/
theorem unsized_handle (he : e.isOffCanvas = true) :
    (s.handle compiler e).unsized = (s.unsized.handle compiler e).unsized := by
  cases e with
  | setResolution exponent =>
      exact congrArg Turn.answer (Turn.unsized_setResolution exponent (Turn.ofSession s))
  | resetView => exact congrArg Turn.answer (Turn.unsized_resetView (Turn.ofSession s))
  | keyDown key modifiers =>
      simp only [handle, Turn.keyDown]
      split
      · exact congrArg Turn.answer (Turn.unsized_unsized (Turn.ofSession s)).symm
      · exact congrArg Turn.answer (Turn.unsized_unsized (Turn.ofSession s)).symm
  | setSource source =>
      exact congrArg (fun s => (⟨s, [], .nothing⟩ : Answer α σ)) (s.unsized_setSource source)
  | graph => exact congrArg Turn.answer (Turn.unsized_compile compiler true (Turn.ofSession s))
  | redraw =>
      rw [handle, handle, unsized_drawAnswer _ Scheduler.ignoresPending_drawNow,
        unsized_drawAnswer _ Scheduler.ignoresPending_drawNow, unsized_unsized]
  | setAutoRedraw auto =>
      simp [handle, Answer.unsized, unsized, Scheduler.setAuto]
  | setShading x => exact s.unsized_restyle _ _
  | setContour x => exact s.unsized_restyle _ _
  | setDecorations mask => exact s.unsized_restyle _ _
  | setColoring mode => exact s.unsized_restyle _ _
  | setGrid mode => exact s.unsized_restyle _ _
  | setTheme theme => exact congrArg Turn.answer (Turn.unsized_setTheme theme (Turn.ofSession s))
  | toggleTheme =>
      exact congrArg Turn.answer (Turn.unsized_setTheme s.theme.toggled (Turn.ofSession s))
  | addSlider name x =>
      exact congrArg Turn.answer (Turn.unsized_addSlider compiler name x (Turn.ofSession s))
  | addPoint name z =>
      exact congrArg Turn.answer (Turn.unsized_addPoint compiler name z (Turn.ofSession s))
  | removeVariable id =>
      exact congrArg Turn.answer (Turn.unsized_removeVariable compiler id (Turn.ofSession s))
  | editVariable id field text =>
      exact s.unsized_answerOr (Turn.unsized_editVariable compiler id field text _)
  | slideVariable id raw => exact s.unsized_answerOr (Turn.unsized_slideVariable id raw _)
  | _ => cases he

end Session

namespace Turn

theorem size_viewChanged (t : Turn α σ) : t.viewChanged.session.size = t.session.size := by
  cases hsize : t.session.size with
  | none => rw [viewChanged_of_none hsize, hsize]
  | some size => rw [(viewChanged_of_some hsize).1, hsize]

theorem size_resize {width height : α} {size : ScreenSize α}
    (h : ScreenSize.ofSides width height = .ok size) (t : Turn α σ) :
    (t.resize width height).session.size = some size := by
  rw [resize, h]
  simp only [tellLabel, tell, size_viewChanged, session_callSurface]
  rfl

end Turn

namespace Session

/-- The screen keeps its size until an event brings another. -/
theorem Effect.size_eq {compiler : Compiler} {event : Event α} {s s' : Session α σ}
    {cs : List (Call α)} (h : Effect compiler event s s' cs) (hevent : event.resizes = false) :
    s'.size = s.size := by
  cases h with
  | surfaced h =>
      rcases h with ⟨-, -, hresizes⟩ | ⟨hsize, -⟩
      · rw [hevent] at hresizes
        cases hresizes
      · exact hsize.symm
  | compiled h hc =>
      obtain ⟨error, scheduler, rfl⟩ := hc.eq_with
      rfl
  | _ => rfl

variable [KeyValueStore σ] (compiler : Compiler) (s : Session α σ)

theorem size_handle {e : Event α} (he : e.resizes = false) :
    (s.handle compiler e).session.size = s.size := by
  have hstart : ∀ width height, e ≠ .start width height := by
    rintro width height rfl
    cases he
  obtain ⟨s₁, s₂, h₁, heffect, h₂⟩ := handle_responds compiler s hstart
  rw [h₂.size, heffect.size_eq he, h₁.size]

end Session

namespace Transcript

variable [KeyValueStore σ]

/-- What the page learns from each event of a run. -/
def replies (r : Transcript α σ) : List (Step α) → List (Reply α)
  | [] => []
  | x :: xs => (r.session.handle x.compiler x.event).reply :: (r.step x).replies xs

theorem replies_append (r : Transcript α σ) (xs ys : List (Step α)) :
    r.replies (xs ++ ys) = r.replies xs ++ (r.run xs).replies ys := by
  induction xs generalizing r with
  | nil => rfl
  | cons x xs ih => rw [List.cons_append, replies, ih, replies, run_cons, List.cons_append]

@[simp] theorem length_replies (r : Transcript α σ) (xs : List (Step α)) :
    (r.replies xs).length = xs.length := by
  induction xs generalizing r with
  | nil => rfl
  | cons x xs ih => rw [replies, List.length_cons, ih, List.length_cons]

/-- Two transcripts that differ at most by what has to do with the screen. -/
structure Alike (r r' : Transcript α σ) : Prop where
  session : r.session.unsized = r'.session.unsized
  compilations : Call.compilations r.calls = Call.compilations r'.calls

variable {r r' : Transcript α σ} {xs : List (Step α)}

theorem Alike.answer (h : r.Alike r') {x : Step α} (hx : x.event.isOffCanvas = true) :
    (r.session.handle x.compiler x.event).unsized =
      (r'.session.handle x.compiler x.event).unsized := by
  rw [Session.unsized_handle _ _ hx, h.session, ← Session.unsized_handle _ _ hx]

theorem Alike.step (h : r.Alike r') {x : Step α} (hx : x.event.isOffCanvas = true) :
    (r.step x).Alike (r'.step x) := by
  have hanswer := h.answer hx
  refine ⟨congrArg Answer.session hanswer, ?_⟩
  rw [calls_step, calls_step, Call.compilations_append, Call.compilations_append, h.compilations]
  exact congrArg (_ ++ ·) (congrArg Answer.calls hanswer)

theorem alike_resize (compiler : Compiler) (width height : α) (r : Transcript α σ) :
    (r.step ⟨compiler, .resize width height⟩).Alike r := by
  have hturn := Turn.unsized_resize width height (Turn.ofSession r.session)
  refine ⟨congrArg Turn.session hturn, ?_⟩
  have hcalls : Call.compilations (r.session.handle compiler (.resize width height)).calls = [] :=
    congrArg Turn.calls hturn
  rw [calls_step, Call.compilations_append, hcalls, List.append_nil]

theorem Alike.run (h : r.Alike r') (hxs : ∀ x ∈ xs, x.event.isOffCanvas = true) :
    (r.run xs).Alike (r'.run xs) ∧
      (r.replies xs).map Reply.bare = (r'.replies xs).map Reply.bare := by
  induction xs generalizing r r' with
  | nil => exact ⟨h, rfl⟩
  | cons x xs ih =>
      obtain ⟨hx, hxs⟩ := List.forall_mem_cons.mp hxs
      obtain ⟨hrun, hreplies⟩ := ih (h.step hx) hxs
      refine ⟨hrun, ?_⟩
      rw [replies, replies, List.map_cons, List.map_cons, hreplies]
      exact congrArg (· :: _) (congrArg Answer.reply (h.answer hx))

theorem size_run (r : Transcript α σ) (hxs : ∀ x ∈ xs, x.event.isOffCanvas = true) :
    (r.run xs).session.size = r.session.size := by
  induction xs generalizing r with
  | nil => rfl
  | cons x xs ih =>
      obtain ⟨hx, hxs⟩ := List.forall_mem_cons.mp hxs
      exact (ih (r.step x) hxs).trans
        (r.session.size_handle x.compiler (Event.resizes_of_isOffCanvas hx))

theorem alike_inserted (r : Transcript α σ) (before : List (Step α)) {after : List (Step α)}
    (hafter : ∀ x ∈ after, x.event.isOffCanvas = true) (compiler : Compiler) (width height : α) :
    let x : Step α := ⟨compiler, .resize width height⟩
    (r.run (before ++ x :: after)).Alike (r.run (before ++ after)) ∧
      ((r.replies (before ++ x :: after)).eraseIdx before.length).map Reply.bare =
        (r.replies (before ++ after)).map Reply.bare := by
  intro x
  obtain ⟨hrun, hreplies⟩ := (alike_resize compiler width height (r.run before)).run hafter
  constructor
  · rw [run_append, run_append, run_cons]
    exact hrun
  · rw [replies_append, replies_append, replies, List.eraseIdx_append_of_length_le (by simp),
      length_replies, Nat.sub_self, List.eraseIdx_cons_zero, List.map_append, List.map_append]
    exact congrArg (_ ++ ·) hreplies

theorem size_inserted (r : Transcript α σ) (before : List (Step α)) {after : List (Step α)}
    (hafter : ∀ x ∈ after, x.event.isOffCanvas = true) (compiler : Compiler) {width height : α}
    {size : ScreenSize α} (hsize : ScreenSize.ofSides width height = .ok size) :
    (r.run (before ++ ⟨compiler, .resize width height⟩ :: after)).session.size = some size := by
  rw [run_append, run_cons, size_run _ hafter]
  exact Turn.size_resize hsize (Turn.ofSession (r.run before).session)

end Transcript

/-- With the screen, and with all markers in their places, nothing is open but whether a frame is
pending. -/
theorem Session.eq_of_unsized {s s' : Session α σ} (h : s.unsized = s'.unsized)
    (hsize : s.size = s'.size) (hplaced : s.registry.Placed s.view s.size)
    (hplaced' : s'.registry.Placed s'.view s'.size) :
    s' = { s with scheduler := { s.scheduler with pending := s'.scheduler.pending } } := by
  obtain ⟨settings, store, view, size, drag, cursor, registry, scheduler, style, source, error,
    theme⟩ := s
  obtain ⟨settings', store', view', size', drag', cursor', registry', scheduler', style', source',
    error', theme'⟩ := s'
  simp only [unsized, Session.mk.injEq, Scheduler.mk.injEq, and_true, true_and] at h
  obtain ⟨rfl, rfl, rfl, rfl, rfl, hregistry, ⟨hauto, hready⟩, rfl, rfl, rfl, rfl⟩ := h
  obtain rfl : size = size' := hsize
  obtain rfl : registry = registry' := hplaced'.eq_of_unmarked hplaced hregistry
  simp [hauto, hready]

theorem Call.exists_mem_view_calls {k : Call.Kind} (hk : k.topic = .view) (v : View α)
    (size : ScreenSize α) : ∃ d ∈ v.calls size, d.kind = k := by
  cases k with
  | resize => exact ⟨_, List.mem_cons_self .., rfl⟩
  | resolution => exact ⟨.resolution v.resolution, by simp [View.calls], rfl⟩
  | bounds => exact ⟨.bounds (v.bounds size), by simp [View.calls], rfl⟩
  | _ => cases hk

namespace Transcript

variable [KeyValueStore σ]

/-- The screen may come late. Take any events that do not come from the canvas, and put one resize
among them, anywhere. Then the session is the same in the end, but for whether a frame is pending;
every other event is carried out or refused alike; and the plotter has the same bounds, the same
surface and resolution, the same numbers in the slots that are in use and the same names. -/
theorem run_resize_anywhere {store : σ} {settings : Settings α} {s : Session α σ}
    (hs : Session.ofSettings store settings = .ok s)
    {steps before after before' after' : List (Step α)}
    (hsteps : ∀ x ∈ steps, x.event.isOffCanvas = true) (hsplit : before ++ after = steps)
    (hsplit' : before' ++ after' = steps) {width height : α} {size : ScreenSize α}
    (hsize : ScreenSize.ofSides width height = .ok size) (compiler : Compiler) :
    let x : Step α := ⟨compiler, .resize width height⟩
    let r := (ofSession s).run (before ++ x :: after)
    let r' := (ofSession s).run (before' ++ x :: after')
    r.session.size = some size ∧
    r'.session = { r.session with
      scheduler := { r.session.scheduler with pending := r'.session.scheduler.pending } } ∧
    (((ofSession s).replies (before ++ x :: after)).eraseIdx before.length).map Reply.bare =
      (((ofSession s).replies (before' ++ x :: after')).eraseIdx before'.length).map Reply.bare ∧
    (∀ k : Call.Kind, k.topic = .view → ∃ d, Call.lastOf (Call.ofKind? k) r.calls = some d ∧
      Call.lastOf (Call.ofKind? k) r'.calls = some d) ∧
    (∀ i z, r.session.registry.slots[i]? = some z →
      Call.lastOf (Call.slotAt? i) r.calls = some z ∧
        Call.lastOf (Call.slotAt? i) r'.calls = some z) ∧
    Call.lastOf Call.names? r.calls = Call.lastOf Call.names? r'.calls := by
  intro x r r'
  obtain ⟨-, rfl⟩ := Session.ofSettings_eq_ok_iff.mp hs
  let fresh : Transcript α σ := ofSession (Session.begun store settings)
  have hafter : ∀ y ∈ after, y.event.isOffCanvas = true := by
    intro y hy
    exact hsteps y (hsplit ▸ List.mem_append_right _ hy)
  have hafter' : ∀ y ∈ after', y.event.isOffCanvas = true := by
    intro y hy
    exact hsteps y (hsplit' ▸ List.mem_append_right _ hy)
  have hsized : r.session.size = some size := fresh.size_inserted before hafter compiler hsize
  have hsized' : r'.session.size = some size := fresh.size_inserted before' hafter' compiler hsize
  -- Both runs are like the one without a screen.
  obtain ⟨halike, hreplies⟩ := fresh.alike_inserted before hafter compiler width height
  obtain ⟨halike', hreplies'⟩ := fresh.alike_inserted before' hafter' compiler width height
  rw [hsplit] at halike hreplies
  rw [hsplit'] at halike' hreplies'
  have hplaced (ys : List (Step α)) :
      (fresh.run ys).session.registry.Placed (fresh.run ys).session.view
        (fresh.run ys).session.size :=
    placed_run (Session.placed_begun store settings) ys
  have hsession : r'.session = _ :=
    Session.eq_of_unsized (halike.session.trans halike'.session.symm) (hsized.trans hsized'.symm)
      (hplaced _) (hplaced _)
  have hview : r'.session.view = r.session.view := by rw [hsession]
  have hregistry : r'.session.registry = r.session.registry := by rw [hsession]
  -- What the plotter has is told by the session, so it is the same too.
  have hshown (ys : List (Step α)) : (fresh.run ys).session.Displayed (fresh.run ys).calls :=
    displayed_run (Session.displayed_nil rfl) ys
  have hsent (ys : List (Step α)) :
      (fresh.run ys).session.registry.SentBy (fresh.run ys).calls :=
    sentBy_run Registry.sentBy_nil ys
  refine ⟨hsized, hsession, hreplies.trans hreplies'.symm, ?_, ?_, ?_⟩
  · intro k hk
    obtain ⟨d, hd, rfl⟩ := Call.exists_mem_view_calls hk r.session.view size
    refine ⟨d, (hshown _).seen size hsized d hd, (hshown _).seen size hsized' d ?_⟩
    rwa [← hview] at hd
  · intro i z hz
    refine ⟨(hsent _).slots i z hz, (hsent _).slots i z ?_⟩
    rwa [← hregistry] at hz
  · rw [← Call.lastOf_names?_compilations, ← Call.lastOf_names?_compilations r'.calls,
      halike.compilations, halike'.compilations]

/-- A point is typed and a slider removed, with the resize before all of it and between the two. -/
theorem run_resize_anywhere_between :
    let accepting : Compiler := fun _ _ => .accepted
    let s : Session Float MemoryStore := .begun ⟨[]⟩ .initial
    let early : List (Step Float) :=
      [⟨accepting, .setAutoRedraw false⟩, ⟨accepting, .addSlider "a" .initial⟩,
        ⟨accepting, .addPoint "b" ⟨0.0, 0.0⟩⟩, ⟨accepting, .editVariable ⟨1⟩ .re "1.5"⟩]
    let late : List (Step Float) :=
      [⟨accepting, .removeVariable ⟨0⟩⟩, ⟨accepting, .editVariable ⟨1⟩ .step "2"⟩,
        ⟨accepting, .graph⟩]
    let x : Step Float := ⟨accepting, .resize 100.0 100.0⟩
    let r := (ofSession s).run (early ++ x :: late)
    let r' := (ofSession s).run (x :: (early ++ late))
    Session.ofSettings ⟨[]⟩ .initial = .ok s ∧
      (∀ y ∈ early ++ late, y.event.isOffCanvas = true) ∧
      r'.session.registry = r.session.registry ∧
      r.session.registry.find? ⟨1⟩ = some ⟨⟨1⟩, "b", .point ⟨1.5, 0.0⟩
        ⟨"1.5", "0", some ⟨75.0, 50.0⟩⟩⟩ ∧
      Call.lastOf Call.names? r'.calls = some ["b"] := by
  intro accepting s early late x r r'
  have hs : Session.ofSettings ⟨[]⟩ .initial = .ok s :=
    Session.ofSettings_eq_ok_iff.mpr ⟨by decide +kernel, rfl⟩
  have hsteps : ∀ y ∈ early ++ late, y.event.isOffCanvas = true := by
    simp [early, late, Event.isOffCanvas]
  have hsize : ScreenSize.ofSides (100.0 : Float) 100.0 = .ok ⟨100.0, 100.0⟩ :=
    if_pos (by decide +kernel)
  have hfind : r.session.registry.find? ⟨1⟩ = some ⟨⟨1⟩, "b", .point ⟨1.5, 0.0⟩
      ⟨"1.5", "0", some ⟨75.0, 50.0⟩⟩⟩ := by decide +kernel
  have hnames : Call.lastOf Call.names? r.calls = some ["b"] := by decide +kernel
  -- From here on the runs are known by these facts only.
  clear_value s early late
  have hsplit : early ++ late = early ++ late := rfl
  have hsplit' : [] ++ (early ++ late) = early ++ late := rfl
  obtain ⟨-, hsession, -, -, -, hlast⟩ :=
    run_resize_anywhere hs hsteps hsplit hsplit' hsize accepting
  have hregistry := congrArg Session.registry hsession
  exact ⟨hs, hsteps, hregistry, hfind, hlast.symm.trans hnames⟩

end Transcript

end PlotPane
