import PlotPane.Page.Storage
import PlotPane.Proofs.Sizing

/-!
# Nothing hangs on the store

A session reads its store once, when it begins. From then on it only writes: the text when it is
another one, and the theme. Whether a write succeeds is never asked. So a session over another store
does the same in all that the page and the plotter can see, and the two differ in what their stores
have become and in nothing else.
-/

namespace PlotPane

variable {α σ τ : Type}

/-- The same session over another store. -/
def Session.over (s : Session α σ) (store : τ) : Session α τ :=
  { s with store := store }

def Turn.over (t : Turn α σ) (store : τ) : Turn α τ :=
  ⟨t.session.over store, t.calls, t.actions⟩

def Answer.over (a : Answer α σ) (store : τ) : Answer α τ :=
  ⟨a.session.over store, a.calls, a.reply⟩

namespace Session

/-- What an event leaves in a store: a text that is not the old one, or a theme. -/
def written [KeyValueStore τ] (s : Session α σ) (store : τ) : Event α → τ
  | .setSource source =>
    if s.source = source then store else Preferences.saveSource store source
  | .setTheme theme => Preferences.saveTheme store theme
  | .toggleTheme => Preferences.saveTheme store s.theme.toggled
  | _ => store

theorem over_store (s : Session α σ) : s.over s.store = s := rfl

/-- A session begins in the same way over stores that have the same preferences. -/
theorem begun_over [Scalar α] [KeyValueStore σ] [KeyValueStore τ] {store : σ} {store' : τ}
    (hsource : KeyValueStore.get? store' Preferences.sourceKey =
      KeyValueStore.get? store Preferences.sourceKey)
    (htheme : KeyValueStore.get? store' Preferences.themeKey =
      KeyValueStore.get? store Preferences.themeKey) (settings : Settings α) :
    begun store' settings = (begun store settings).over store' := by
  have hsource' : Preferences.loadSource store' = Preferences.loadSource store := by
    rw [Preferences.loadSource, Preferences.loadSource, hsource]
  have htheme' : Preferences.loadTheme store' = Preferences.loadTheme store := by
    rw [Preferences.loadTheme, Preferences.loadTheme, htheme]
  rw [begun, begun, hsource', htheme']
  rfl

end Session

variable [Scalar α]

namespace Turn

variable (t : Turn α σ) (store : τ)

section

omit [Scalar α]

theorem view_over : (t.over store).session.view = t.session.view := rfl

theorem size_over : (t.over store).session.size = t.session.size := rfl

theorem settings_over : (t.over store).session.settings = t.session.settings := rfl

theorem registry_over : (t.over store).session.registry = t.session.registry := rfl

theorem source_over : (t.over store).session.source = t.session.source := rfl

theorem setCursor_over (position : ScreenPoint α) :
    (t.over store).setCursor position = (t.setCursor position).over store := rfl

end

theorem over_callSurface : (t.over store).callSurface = t.callSurface.over store := by
  rw [callSurface, callSurface, size_over]
  cases t.session.size <;> rfl

theorem over_viewChanged : (t.over store).viewChanged = t.viewChanged.over store := by
  rw [viewChanged, viewChanged, size_over]
  cases t.session.size <;> rfl

theorem over_compile (compiler : Compiler) (explicit : Bool) :
    (t.over store).compile compiler explicit = (t.compile compiler explicit).over store := by
  rw [compile, compile, source_over, registry_over]
  cases compiler t.session.source t.session.registry.names with
  | accepted => cases explicit <;> rfl
  | rejected message => rfl

theorem over_resize (width height : α) :
    (t.over store).resize width height = (t.resize width height).over store := by
  rw [resize, resize]
  cases ScreenSize.ofSides width height with
  | error err => rfl
  | ok size =>
      let sized := t.update fun s => { s with size := some size }
      change (sized.over store).callSurface.viewChanged.tellLabel = _
      rw [over_callSurface, over_viewChanged]
      rfl

theorem over_start (compiler : Compiler) (width height : α) :
    (t.over store).start compiler width height =
      (t.start compiler width height).over store := by
  let styled := (t.call t.session.style.calls).tell [.themeChanged t.session.theme]
  change ((styled.over store).resize width height).compile compiler true = _
  rw [over_resize, over_compile]
  rfl

theorem over_look (v : View α) :
    ((t.over store).update fun s => { s with view := v }).viewChanged =
      (t.update fun s => { s with view := v }).viewChanged.over store :=
  over_viewChanged (t.update fun s => { s with view := v }) store

theorem over_setResolution (exponent : α) :
    (t.over store).setResolution exponent = (t.setResolution exponent).over store := by
  rw [setResolution, setResolution, view_over]
  cases t.session.view.setResolution (Scalar.exp2 exponent) with
  | error err => rfl
  | ok v =>
      let seen := t.update fun s => { s with view := v }
      change (seen.over store).callSurface.viewChanged = _
      rw [over_callSurface, over_viewChanged]

theorem over_resetView : (t.over store).resetView = t.resetView.over store := by
  rw [resetView, resetView, view_over, settings_over]
  cases t.session.view.reset t.session.settings.defaultScale with
  | error err => rfl
  | ok v =>
      simp only [over_look]
      rfl

theorem over_pointerDown (position : ScreenPoint α) (button : Button) :
    (t.over store).pointerDown position button = (t.pointerDown position button).over store := by
  rw [pointerDown, pointerDown, setCursor_over, registry_over, settings_over]
  split
  · cases (t.setCursor position).session.registry.markerAt position
        (t.setCursor position).session.settings.markerRadius <;> rfl
  · rfl

theorem over_pan (delta : ScreenPoint α) : (t.over store).pan delta = (t.pan delta).over store := by
  rw [pan, pan, size_over, view_over]
  cases t.session.size with
  | none => rfl
  | some size =>
      simp only
      cases t.session.view.pan delta size with
      | error err => rfl
      | ok v => exact over_look t store v

theorem over_dragPoint (id : VariableId) (position : ScreenPoint α) :
    (t.over store).dragPoint id position = (t.dragPoint id position).over store := by
  cases hsize : t.session.size with
  | none => rw [dragPoint_of_none hsize, dragPoint_of_none (t := t.over store) hsize]
  | some size =>
      cases hset : t.session.registry.setPoint id (t.session.view.toPlane size position)
          t.session.view (some size) with
      | error err =>
          rw [dragPoint_of_error hsize hset, dragPoint_of_error (t := t.over store) hsize hset]
          rfl
      | ok u =>
          obtain ⟨i, e, hi, he, -⟩ := Registry.slots_setPoint hset
          rw [dragPoint_of_ok hsize hset hi he,
            dragPoint_of_ok (t := t.over store) hsize hset hi he]
          rfl

theorem over_pointerMove (position : ScreenPoint α) :
    (t.over store).pointerMove position = (t.pointerMove position).over store := by
  cases hdrag : t.session.drag with
  | idle =>
      rw [pointerMove_of_idle hdrag, pointerMove_of_idle (t := t.over store) hdrag]
      rfl
  | panning last =>
      let grabbed := t.setDrag (.panning position)
      have hpan := over_pan grabbed store ⟨position.x - last.x, position.y - last.y⟩
      have hgrabbed : (t.over store).setDrag (.panning position) = grabbed.over store := rfl
      rw [pointerMove_of_panning hdrag, pointerMove_of_panning (t := t.over store) hdrag, hgrabbed,
        hpan]
      rfl
  | point id =>
      rw [pointerMove_of_point hdrag, pointerMove_of_point (t := t.over store) hdrag,
        over_dragPoint]
      rfl

theorem over_wheel (position : ScreenPoint α) (delta : WheelDelta α) :
    (t.over store).wheel position delta = (t.wheel position delta).over store := by
  rw [wheel, wheel, setCursor_over]
  generalize t.setCursor position = seen
  rw [size_over, view_over, settings_over]
  cases seen.session.size with
  | none => rfl
  | some size =>
      simp only
      cases seen.session.view.zoom position delta.dy seen.session.settings.zoomRate size with
      | error err => rfl
      | ok u =>
          simp only [over_look]
          rfl

theorem over_keyDown (key : Key) (modifiers : Modifiers) :
    (t.over store).keyDown key modifiers = (t.keyDown key modifiers).over store := by
  rw [keyDown, keyDown]
  split <;> rfl

theorem over_addSlider (compiler : Compiler) (name : String) (x : Slider α) :
    (t.over store).addSlider compiler name x = (t.addSlider compiler name x).over store := by
  rw [addSlider, addSlider, registry_over]
  cases t.session.registry.addSlider name x with
  | none => rfl
  | some u =>
      exact over_compile ((t.update fun s => { s with registry := u.2 }).tellAdded u.1) store
        compiler false

theorem over_addPoint (compiler : Compiler) (name : String) (z : PlanePoint α) :
    (t.over store).addPoint compiler name z = (t.addPoint compiler name z).over store := by
  rw [addPoint, addPoint, registry_over]
  cases t.session.registry.addPoint name z with
  | none => rfl
  | some u =>
      let placed := (t.update fun s => { s with registry := u.2 }).placeMarkers
      exact over_compile ((placed.tellAdded u.1).tellMarker u.1) store compiler false

theorem over_removeVariable (compiler : Compiler) (id : VariableId) :
    (t.over store).removeVariable compiler id = (t.removeVariable compiler id).over store := by
  have hdrag : (t.over store).session.drag = t.session.drag := rfl
  rw [removeVariable, removeVariable, registry_over, hdrag]
  cases t.session.registry.remove id with
  | none => rfl
  | some u =>
      let drag := if t.session.drag.point? = some id then .idle else t.session.drag
      exact over_compile ((t.update fun s => { s with registry := u.2, drag := drag }).tell
        [.removed id]) store compiler false

theorem over_editVariable (compiler : Compiler) (id : VariableId) (field : Field)
    (text : String) :
    (t.over store).editVariable compiler id field text =
      (t.editVariable compiler id field text).map (Turn.over · store) := by
  rw [editVariable, editVariable, registry_over]
  cases t.session.registry.edit id field text with
  | error err => rfl
  | ok u =>
      obtain ⟨kind, r⟩ := u
      refine congrArg Except.ok ?_
      cases kind with
      | name =>
          exact over_compile (t.update fun s => { s with registry := r }) store compiler false
      | value => rfl
      | range => rfl

theorem over_slideVariable (id : VariableId) (raw : α) :
    (t.over store).slideVariable id raw = (t.slideVariable id raw).map (Turn.over · store) := by
  rw [slideVariable, slideVariable, registry_over]
  cases t.session.registry.slide id raw <;> rfl

end Turn

namespace Session

variable (s : Session α σ) (store : τ)

omit [Scalar α] in
theorem over_answerOr (x : Except VariableError (Turn α σ)) :
    (s.over store).answerOr (x.map (Turn.over · store)) = (s.answerOr x).over store := by
  cases x <;> rfl

variable [KeyValueStore σ] [KeyValueStore τ] (compiler : Compiler)

/-- The answer to an event is the same over every store, but for what is written to it. -/
theorem handle_over (e : Event α) :
    (s.over store).handle compiler e = (s.handle compiler e).over (s.written store e) := by
  cases e with
  | start width height =>
      exact congrArg Turn.answer (Turn.over_start (Turn.ofSession s) store compiler width height)
  | resize width height =>
      exact congrArg Turn.answer (Turn.over_resize (Turn.ofSession s) store width height)
  | setResolution exponent =>
      exact congrArg Turn.answer (Turn.over_setResolution (Turn.ofSession s) store exponent)
  | resetView => exact congrArg Turn.answer (Turn.over_resetView (Turn.ofSession s) store)
  | pointerDown position button modifiers =>
      exact congrArg Turn.answer (Turn.over_pointerDown (Turn.ofSession s) store position button)
  | pointerMove position modifiers =>
      exact congrArg Turn.answer (Turn.over_pointerMove (Turn.ofSession s) store position)
  | wheel position delta modifiers =>
      exact congrArg Turn.answer (Turn.over_wheel (Turn.ofSession s) store position delta)
  | keyDown key modifiers =>
      exact congrArg Turn.answer (Turn.over_keyDown (Turn.ofSession s) store key modifiers)
  | setSource source =>
      have hsource : (s.over store).source = s.source := rfl
      rw [handle, handle, setSource, setSource, hsource, written]
      split <;> rfl
  | graph =>
      exact congrArg Turn.answer (Turn.over_compile (Turn.ofSession s) store compiler true)
  | addSlider name x =>
      exact congrArg Turn.answer (Turn.over_addSlider (Turn.ofSession s) store compiler name x)
  | addPoint name z =>
      exact congrArg Turn.answer (Turn.over_addPoint (Turn.ofSession s) store compiler name z)
  | removeVariable id =>
      exact congrArg Turn.answer (Turn.over_removeVariable (Turn.ofSession s) store compiler id)
  | editVariable id field text =>
      have hedit := Turn.over_editVariable (Turn.ofSession s) store compiler id field text
      exact (congrArg (s.over store).answerOr hedit).trans (s.over_answerOr store _)
  | slideVariable id raw =>
      have hslide := Turn.over_slideVariable (Turn.ofSession s) store id raw
      exact (congrArg (s.over store).answerOr hslide).trans (s.over_answerOr store _)
  | _ => rfl

/-- What has become of the store after an event. -/
theorem store_handle (e : Event α) :
    (s.handle compiler e).session.store = s.written s.store e := by
  have hself := s.handle_over s.store compiler e
  rw [over_store] at hself
  rw [hself]
  rfl

end Session

namespace Transcript

variable [KeyValueStore σ] [KeyValueStore τ]

/-- After every run the session, the log and the replies are the same over another store, but for
the store. -/
theorem run_over (s : Session α σ) (store : τ) (log : List (Told α)) (steps : List (Step α)) :
    ∃ store', run ⟨s.over store, log⟩ steps =
        ⟨(run ⟨s, log⟩ steps).session.over store', (run ⟨s, log⟩ steps).log⟩ ∧
      replies ⟨s.over store, log⟩ steps = replies ⟨s, log⟩ steps := by
  induction steps generalizing s store log with
  | nil => exact ⟨store, rfl, rfl⟩
  | cons x xs ih =>
      have hanswer := s.handle_over store x.compiler x.event
      have hstep : step ⟨s.over store, log⟩ x =
          ⟨(step ⟨s, log⟩ x).session.over (s.written store x.event), (step ⟨s, log⟩ x).log⟩ := by
        rw [step, step, hanswer]
        rfl
      obtain ⟨store', hrun, hreplies⟩ := ih (step ⟨s, log⟩ x).session (s.written store x.event)
        (step ⟨s, log⟩ x).log
      refine ⟨store', ?_, ?_⟩
      · rw [run_cons, run_cons, hstep, hrun]
      · rw [replies, replies, hstep, hreplies, hanswer]
        rfl

/-- What the store does with what is written to it is never noticed. Take two stores of any kind
that have the same text and the same theme in the beginning, and do the same in a session over each.
Then the settings are accepted or rejected alike, every event has the same reply, the plotter is
told the same and says the same, and after every event the sessions are the same but for their
stores. -/
theorem run_ignores_store {store : σ} {store' : τ}
    (hsource : KeyValueStore.get? store' Preferences.sourceKey =
      KeyValueStore.get? store Preferences.sourceKey)
    (htheme : KeyValueStore.get? store' Preferences.themeKey =
      KeyValueStore.get? store Preferences.themeKey) (settings : Settings α) :
    (∀ err, Session.ofSettings store' settings = .error err ↔
      Session.ofSettings store settings = .error err) ∧
    ∀ s, Session.ofSettings store settings = .ok s →
      ∃ s', Session.ofSettings store' settings = .ok s' ∧ ∀ steps : List (Step α),
        let r := (ofSession s).run steps
        let r' := (ofSession s').run steps
        (ofSession s').replies steps = (ofSession s).replies steps ∧
        r'.log = r.log ∧
        r'.session = { r.session with store := r'.session.store } := by
  constructor
  · intro err
    rw [Session.ofSettings, Session.ofSettings, map_eq_error_iff, map_eq_error_iff]
  · intro s hs
    obtain ⟨hvalid, rfl⟩ := Session.ofSettings_eq_ok_iff.mp hs
    refine ⟨_, Session.ofSettings_eq_ok_iff.mpr ⟨hvalid, rfl⟩, ?_⟩
    intro steps r r'
    have hbegun := Session.begun_over hsource htheme settings
    obtain ⟨store'', hrun, hreplies⟩ := run_over (Session.begun store settings) store' [] steps
    rw [← hbegun] at hrun hreplies
    have hr' : r' = ⟨r.session.over store'', r.log⟩ := hrun
    refine ⟨hreplies, ?_, ?_⟩
    · rw [hr']
    · rw [hr']
      rfl

/-- One store keeps the texts and the theme, the other fails at every write. -/
theorem run_ignores_store_failing :
    let accepting : Compiler := fun _ _ => .accepted
    let rejecting : Compiler := fun _ _ => .rejected "?"
    let items := [(Preferences.themeKey, "light"), ("other", "z")]
    let store : MemoryStore := ⟨items⟩
    let store' : PageStore := ⟨some ⟨items, none, some (.error "full")⟩⟩
    let s : Session Float MemoryStore := .begun store .initial
    let steps : List (Step Float) :=
      [⟨accepting, .start 100.0 100.0⟩, ⟨accepting, .setSource "z"⟩, ⟨rejecting, .graph⟩,
        ⟨accepting, .toggleTheme⟩, ⟨accepting, .setSource "z"⟩,
        ⟨accepting, .addPoint "c" ⟨0.0, 0.0⟩⟩]
    let r := (ofSession s).run steps
    Session.ofSettings store .initial = .ok s ∧
      r.session.store.items =
        [(Preferences.themeKey, "dark"), ("other", "z"), (Preferences.sourceKey, "z")] ∧
      ∃ s', Session.ofSettings store' .initial = .ok s' ∧
        ((ofSession s').run steps).session.store = store' ∧
        ((ofSession s').run steps).session.source = "z" ∧
        ((ofSession s').run steps).session.theme = .dark ∧
        ((ofSession s').run steps).log = r.log ∧ r.log.length = 14 := by
  intro accepting rejecting items store store' s steps r
  have hs : Session.ofSettings store .initial = .ok s :=
    Session.ofSettings_eq_ok_iff.mpr ⟨by decide +kernel, rfl⟩
  have hstore : r.session.store.items =
      [(Preferences.themeKey, "dark"), ("other", "z"), (Preferences.sourceKey, "z")] := by
    decide +kernel
  have hsource : r.session.source = "z" := by decide +kernel
  have htheme : r.session.theme = .dark := by decide +kernel
  have hlength : r.log.length = 14 := by decide +kernel
  have hkept : ((ofSession (.begun store' .initial)).run steps).session.store = store' := by
    decide +kernel
  have hload : KeyValueStore.get? store' Preferences.sourceKey =
    KeyValueStore.get? store Preferences.sourceKey := by decide +kernel
  have hload' : KeyValueStore.get? store' Preferences.themeKey =
    KeyValueStore.get? store Preferences.themeKey := by decide +kernel
  obtain ⟨-, h⟩ := run_ignores_store hload hload' (.initial : Settings Float)
  obtain ⟨s', hs', hrun⟩ := h s hs
  obtain ⟨-, rfl⟩ := Session.ofSettings_eq_ok_iff.mp hs'
  -- From here on the runs are known by these facts only.
  clear_value s steps store store'
  obtain ⟨-, hlog, hsession⟩ := hrun steps
  refine ⟨hs, hstore, _, hs', hkept, ?_, ?_, hlog, hlength⟩
  · exact (congrArg Session.source hsession).trans hsource
  · exact (congrArg Session.theme hsession).trans htheme

end Transcript

end PlotPane
