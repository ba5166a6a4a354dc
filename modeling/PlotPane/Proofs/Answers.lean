import PlotPane.Proofs.Effects

/-!
# Every answer is an effect

The steps of a turn are followed one by one, and each event is matched with the effect that it has.
On the way it is seen that the page is told of a variable only what the registry has. The last
theorem turns what all effects keep into what all runs keep.
-/

namespace PlotPane

variable {α σ : Type} [Scalar α]

theorem ScreenSize.ofSides_eq_ok {width height : α} {size : ScreenSize α}
    (h : ScreenSize.ofSides width height = .ok size) :
    size = ⟨width, height⟩ ∧ Scalar.isExtent width = true ∧ Scalar.isExtent height = true := by
  obtain ⟨hsides, heq⟩ := ite_eq_ok_iff.mp h
  obtain ⟨hw, hh⟩ := Bool.and_eq_true_iff.mp hsides
  exact ⟨(Except.ok.inj heq).symm, hw, hh⟩

namespace Turn

variable {compiler : Compiler} {event : Event α} {t t' : Turn α σ}

/-- A turn goes on by one effect. Its calls grow by those of the effect, and its actions by such as
tell what the registry has. -/
def Does (compiler : Compiler) (event : Event α) (t t' : Turn α σ) : Prop :=
  ∃ cs as, t'.calls = t.calls ++ cs ∧ t'.actions = t.actions ++ as ∧
    (∀ a ∈ as, t'.session.registry.Reports a) ∧
    t.session.Responds compiler event t'.session cs

theorem does_of_effect {cs : List (Call α)} (hcalls : t'.calls = t.calls ++ cs)
    (hactions : t'.actions = t.actions)
    (h : Session.Effect compiler event t.session t'.session cs) : t.Does compiler event t' :=
  ⟨cs, [], hcalls, hactions.trans (List.append_nil _).symm, List.forall_mem_nil _, .of_effect h⟩

theorem Does.refl (t : Turn α σ) : t.Does compiler event t :=
  does_of_effect (List.append_nil _).symm rfl .silent

theorem Does.tell (h : t.Does compiler event t') {as : List (Action α)}
    (has : ∀ a ∈ as, t'.session.registry.Reports a) : t.Does compiler event (t'.tell as) := by
  obtain ⟨cs, as', hcalls, hactions, hreports, hcs⟩ := h
  refine ⟨cs, as' ++ as, hcalls, ?_, List.forall_mem_append.mpr ⟨hreports, has⟩, hcs⟩
  rw [Turn.tell, hactions, List.append_assoc]

theorem Does.aside (h : t.Does compiler event t') {f : Session α σ → Session α σ}
    (hf : t'.session.Aside (f t'.session)) : t.Does compiler event (t'.update f) := by
  obtain ⟨cs, as, hcalls, hactions, hreports, hcs⟩ := h
  refine ⟨cs, as, hcalls, hactions, ?_, hcs.before_aside hf⟩
  change ∀ a ∈ as, (f t'.session).registry.Reports a
  rwa [hf.registry]

theorem Does.after_aside {u : Turn α σ} (h : u.Does compiler event t')
    (hcalls : u.calls = t.calls) (hactions : u.actions = t.actions)
    (hs : t.session.Aside u.session) : t.Does compiler event t' := by
  obtain ⟨cs, as, hcs, has, hreports, hr⟩ := h
  exact ⟨cs, as, hcalls ▸ hcs, hactions ▸ has, hreports, hr.after_aside hs⟩

theorem Does.tellLabel (h : t.Does compiler event t') : t.Does compiler event t'.tellLabel := by
  apply h.tell
  intro a ha
  obtain ⟨text, -, rfl⟩ := List.mem_map.mp ha
  exact Registry.reports_of_subject rfl

theorem Does.tellSlider (h : t.Does compiler event t') (id : VariableId) :
    t.Does compiler event (t'.tellSlider id) :=
  h.tell fun _ => Registry.reports_of_flatMap fun _ _ => Entry.mem_reports_of_slider

theorem viewChanged_of_none (h : t.session.size = none) : t.viewChanged = t := by
  simp [viewChanged, h]

theorem viewChanged_of_some {size : ScreenSize α} (h : t.session.size = some size) :
    t.viewChanged.session =
        { t.session with
          registry := t.session.registry.placeMarkers t.session.view (some size)
          scheduler := t.session.scheduler.request.2 } ∧
      t.viewChanged.calls =
        t.calls ++ .bounds (t.session.view.bounds size) :: t.session.scheduler.request.1.calls := by
  rw [viewChanged, h]
  constructor
  · simp [requestRedraw, draw, update, call, tell, placeMarkers, h]
  · simp [requestRedraw, draw, update, call, tell, placeMarkers]

theorem actions_viewChanged {size : ScreenSize α} (h : t.session.size = some size) :
    t.viewChanged.actions = t.actions ++
      (t.session.registry.placeMarkers t.session.view (some size)).entries.flatMap
        markerActions := by
  simp [viewChanged, h, requestRedraw, draw, update, call, tell, placeMarkers]

theorem callSurface_of_none (h : t.session.size = none) : t.callSurface = t := by
  simp [callSurface, h]

theorem callSurface_of_some {size : ScreenSize α} (h : t.session.size = some size) :
    t.callSurface = t.call
      [.resize (Scalar.pixels (size.width * t.session.view.resolution))
        (Scalar.pixels (size.height * t.session.view.resolution)),
      .resolution t.session.view.resolution] := by
  simp [callSurface, h]

theorem session_callSurface (t : Turn α σ) : t.callSurface.session = t.session := by
  rw [callSurface]
  cases t.session.size <;> rfl

/-- On a screen a change of the view tells the places of all markers. -/
theorem does_viewChanged {u : Turn α σ} {size : ScreenSize α} {cs : List (Call α)}
    (hsize : u.session.size = some size) (hcalls : u.viewChanged.calls = t.calls ++ cs)
    (hactions : u.actions = t.actions)
    (h : Session.Effect compiler event t.session u.viewChanged.session cs) :
    t.Does compiler event u.viewChanged := by
  refine ⟨cs, _, hcalls, hactions ▸ actions_viewChanged hsize, ?_, .of_effect h⟩
  intro a ha _
  rw [(viewChanged_of_some hsize).1]
  obtain ⟨e, he, ha⟩ := List.mem_flatMap.mp ha
  exact ⟨e, he, Entry.mem_reports_of_marker ha⟩

theorem does_look {v : View α} (h : t.session.view.Moved t.session.size v) :
    t.Does compiler event (t.update fun s => { s with view := v }).viewChanged := by
  cases hsize : t.session.size with
  | none =>
      have hu : (t.update fun s => { s with view := v }).session.size = none := hsize
      rw [viewChanged_of_none hu]
      exact does_of_effect (List.append_nil _).symm rfl (.unseen hsize (Or.inl h))
  | some size =>
      have hu : (t.update fun s => { s with view := v }).session.size = some size := hsize
      obtain ⟨hs, hc⟩ := viewChanged_of_some hu
      refine does_viewChanged hu hc rfl ?_
      rw [hs]
      exact .looked hsize h

theorem does_surface {v : View α} {size : ScreenSize α}
    (h : (v = t.session.view ∧ ScreenSize.ofSides size.width size.height = .ok size ∧
        event.resizes = true) ∨
      (t.session.size = some size ∧ ∃ factor, t.session.view.setResolution factor = .ok v)) :
    t.Does compiler event
      (t.update fun s => { s with size := some size, view := v }).callSurface.viewChanged := by
  have hu : (t.update fun s => { s with size := some size, view := v }).session.size =
      some size := rfl
  rw [callSurface_of_some hu]
  obtain ⟨hs, hc⟩ := viewChanged_of_some
    (t := (t.update fun s => { s with size := some size, view := v }).call _) hu
  refine does_viewChanged hu (hc.trans (List.append_assoc _ _ _)) rfl ?_
  rw [hs]
  exact .surfaced h

theorem does_resize (he : event.resizes = true) (width height : α) :
    t.Does compiler event (t.resize width height) := by
  rw [resize]
  cases hsize : ScreenSize.ofSides width height with
  | error err => exact Does.refl t
  | ok size =>
      obtain ⟨rfl, -, -⟩ := ScreenSize.ofSides_eq_ok hsize
      exact (does_surface (Or.inl ⟨rfl, hsize, he⟩)).tellLabel

theorem does_setResolution (exponent : α) : t.Does compiler event (t.setResolution exponent) := by
  rw [setResolution]
  cases hv : t.session.view.setResolution (Scalar.exp2 exponent) with
  | error err => exact Does.refl t
  | ok v =>
      cases hsize : t.session.size with
      | none =>
          have hu : (t.update fun s => { s with view := v }).session.size = none := hsize
          simp only [callSurface_of_none hu, viewChanged_of_none hu]
          exact does_of_effect (List.append_nil _).symm rfl (.unseen hsize (Or.inr ⟨_, hv⟩))
      | some size =>
          have hu : (t.update fun s => { s with view := v }) =
              t.update fun s => { s with size := some size, view := v } := by
            simp [update, ← hsize]
          simp only [hu]
          exact does_surface (Or.inr ⟨hsize, _, hv⟩)

theorem does_resetView : t.Does compiler event t.resetView := by
  rw [resetView]
  cases hv : t.session.view.reset t.session.settings.defaultScale with
  | error err => exact Does.refl t
  | ok v => exact (does_look (.reset hv)).tellLabel

theorem compile_eq (compiler : Compiler) (explicit : Bool) (t : Turn α σ) :
    ∃ cs a, (t.compile compiler explicit).calls = t.calls ++ cs ∧
      (t.compile compiler explicit).actions = t.actions ++ [a] ∧ a.subject? = none ∧
      t.session.Compilation compiler explicit (t.compile compiler explicit).session cs := by
  rw [compile]
  cases hv : compiler t.session.source t.session.registry.names with
  | accepted =>
      refine ⟨t.session.registry.slotCalls ++ .compile t.session.source t.session.registry.names ::
        ((t.session.scheduler.setReady true).requestFor explicit).1.calls, .compiled, ?_, ?_, rfl,
        ?_⟩
      · cases explicit <;>
          simp [Scheduler.requestFor, drawNow, requestRedraw, draw, update, call, tell, callSlots]
      · cases explicit <;> rfl
      · cases explicit <;> exact .accepted hv
  | rejected message =>
      refine ⟨_, _, ?_, rfl, rfl, .rejected hv⟩
      simp [update, call, tell, callSlots]

theorem compile_eq_with (compiler : Compiler) (explicit : Bool) (t : Turn α σ) :
    ∃ error scheduler, (t.compile compiler explicit).session =
      { t.session with compileError := error, scheduler := scheduler } := by
  obtain ⟨cs, a, -, -, -, hc⟩ := compile_eq compiler explicit t
  exact hc.eq_with

theorem registry_compile (compiler : Compiler) (explicit : Bool) (t : Turn α σ) :
    (t.compile compiler explicit).session.registry = t.session.registry := by
  obtain ⟨error, scheduler, heq⟩ := compile_eq_with compiler explicit t
  rw [heq]

theorem does_compile {u : Turn α σ} {r : Registry α} {as : List (Action α)}
    (h : t.session.registry.Relisted t.session.view t.session.size r)
    (hcalls : u.calls = t.calls) (hactions : u.actions = t.actions ++ as)
    (hs : u.session = { t.session with registry := r }) (has : ∀ a ∈ as, r.Reports a) :
    t.Does compiler event (u.compile compiler event.wantsFrame) := by
  obtain ⟨cs, a, hcs, ha, hnone, hc⟩ := compile_eq compiler event.wantsFrame u
  have hr : u.session.registry = r := by rw [hs]
  rw [hs] at hc
  refine ⟨cs, as ++ [a], hcalls ▸ hcs, ?_, ?_, .of_effect (.compiled h hc)⟩
  · rw [ha, hactions, List.append_assoc]
  · rw [registry_compile, hr]
    exact List.forall_mem_append.mpr
      ⟨has, List.forall_mem_singleton.mpr (Registry.reports_of_subject hnone)⟩

theorem does_pan (delta : ScreenPoint α) : t.Does compiler event (t.pan delta) := by
  rw [pan]
  cases hsize : t.session.size with
  | none => exact Does.refl t
  | some size =>
      simp only
      cases hv : t.session.view.pan delta size with
      | error err => exact Does.refl t
      | ok v => exact does_look (.panned hsize hv)

section

variable {id : VariableId} {position last : ScreenPoint α} {size : ScreenSize α}

theorem pointerMove_of_idle (hdrag : t.session.drag = .idle) :
    t.pointerMove position = (t.setCursor position).tellLabel := by
  rw [pointerMove, hdrag]

theorem pointerMove_of_panning (hdrag : t.session.drag = .panning last) :
    t.pointerMove position = (((t.setDrag (.panning position)).pan
      ⟨position.x - last.x, position.y - last.y⟩).setCursor position).tellLabel := by
  rw [pointerMove, hdrag]

theorem pointerMove_of_point (hdrag : t.session.drag = .point id) :
    t.pointerMove position = ((t.dragPoint id position).setCursor position).tellLabel := by
  rw [pointerMove, hdrag]

theorem dragPoint_of_none (hsize : t.session.size = none) : t.dragPoint id position = t := by
  rw [dragPoint, hsize]

theorem dragPoint_of_error {err : VariableError} (hsize : t.session.size = some size)
    (hset : t.session.registry.setPoint id (t.session.view.toPlane size position) t.session.view
      (some size) = .error err) : t.dragPoint id position = t.setDrag .idle := by
  simp only [dragPoint, hsize, hset]

theorem dragPoint_of_ok {r : Registry α} {i : Nat} {e : Entry α}
    (hsize : t.session.size = some size)
    (hset : t.session.registry.setPoint id (t.session.view.toPlane size position) t.session.view
      (some size) = .ok ((), r))
    (hi : r.indexOf? id = some i) (he : r.find? id = some e) :
    t.dragPoint id position =
      ⟨{ t.session with registry := r, scheduler := t.session.scheduler.request.2 },
        t.calls ++ .slot i e.content.value.slot :: t.session.scheduler.request.1.calls,
        t.actions ++ (e.content.handle?.toList.map fun h => .pointFields id h.reText h.imText) ++
          markerActions e⟩ := by
  simp [dragPoint, hsize, hset, callSlot, tellMarker, update, tell, hi, he, Registry.handle?,
    requestRedraw, draw, call]

end

theorem does_dragPoint (id : VariableId) (position : ScreenPoint α) :
    t.Does compiler event (t.dragPoint id position) := by
  cases hsize : t.session.size with
  | none =>
      rw [dragPoint_of_none hsize]
      exact Does.refl t
  | some size =>
      cases hp : t.session.registry.setPoint id (t.session.view.toPlane size position)
          t.session.view (some size) with
      | error err =>
          rw [dragPoint_of_error hsize hp]
          exact (Does.refl t).aside (.drag _ _)
      | ok u =>
          obtain ⟨i, e, hi, he, -⟩ := Registry.slots_setPoint hp
          rw [dragPoint_of_ok hsize hp hi he, List.append_assoc]
          refine ⟨_, _, rfl, rfl, ?_, .of_effect (.dragged hsize hp hi he)⟩
          intro a ha
          apply Registry.reports_of_find he
          rw [← Registry.id_of_find? he] at ha
          rcases List.mem_append.mp ha with hfields | hmarker
          · exact Entry.mem_reports_of_fields hfields
          · exact Entry.mem_reports_of_marker hmarker

theorem does_pointerMove (position : ScreenPoint α) :
    t.Does compiler event (t.pointerMove position) := by
  rw [pointerMove]
  refine (Does.aside ?_ (.cursor _ _)).tellLabel
  cases t.session.drag with
  | idle => exact Does.refl t
  | panning last => exact (does_pan _).after_aside rfl rfl (.drag _ _)
  | point id => exact does_dragPoint id position

theorem does_wheel (position : ScreenPoint α) (delta : WheelDelta α) :
    t.Does compiler event (t.wheel position delta) := by
  have hseen : (t.setCursor position).Does compiler event (t.wheel position delta) := by
    rw [wheel]
    cases hsize : (t.setCursor position).session.size with
    | none => exact Does.refl _
    | some size =>
        simp only
        cases hv : (t.setCursor position).session.view.zoom position delta.dy
            (t.setCursor position).session.settings.zoomRate size with
        | error err => exact (Does.refl _).tellLabel
        | ok u => exact (does_look (.zoomed hsize hv)).tellLabel
  exact hseen.after_aside rfl rfl (.cursor _ _)

theorem does_pointerDown (position : ScreenPoint α) (button : Button) :
    t.Does compiler event (t.pointerDown position button) := by
  have hseen : t.Does compiler event (t.setCursor position) :=
    (Does.refl t).aside (.cursor _ _)
  rw [pointerDown]
  split
  · cases (t.setCursor position).session.registry.markerAt position
        (t.setCursor position).session.settings.markerRadius with
    | none => exact hseen.aside (.drag _ _)
    | some id => exact hseen.aside (.drag _ _)
  · exact hseen

theorem does_keyDown (key : Key) (modifiers : Modifiers) :
    t.Does compiler event (t.keyDown key modifiers) := by
  rw [keyDown]
  split
  · apply (Does.refl t).tell
    intro a ha
    obtain ⟨text, -, rfl⟩ := List.mem_map.mp ha
    exact Registry.reports_of_subject rfl
  · exact Does.refl t

theorem does_setTheme [KeyValueStore σ] (he : event.isPreference = true) (theme : Theme) :
    t.Does compiler event (t.setTheme theme) := by
  have hkept : t.Does compiler event (t.update fun s =>
      { s with theme := theme, store := Preferences.saveTheme s.store theme }) :=
    does_of_effect (List.append_nil _).symm rfl (.preferred he)
  exact hkept.tell (List.forall_mem_singleton.mpr (Registry.reports_of_subject rfl))

theorem reports_added {r : Registry α} {id : VariableId} {a : Action α}
    (ha : a ∈ (r.find? id).toList.map fun e => .added e.toVariable) : r.Reports a := by
  obtain ⟨e, he, rfl⟩ := List.mem_map.mp ha
  exact Registry.reports_of_find (Option.mem_toList.mp he) e.added_mem_reports

theorem does_addSlider (name : String) (x : Slider α) :
    t.Does compiler (.addSlider name x) (t.addSlider compiler name x) := by
  rw [addSlider]
  cases hr : t.session.registry.addSlider name x with
  | none => exact Does.refl t
  | some u => exact does_compile (.slider hr) rfl rfl rfl fun _ => reports_added

theorem does_addPoint (name : String) (z : PlanePoint α) :
    t.Does compiler (.addPoint name z) (t.addPoint compiler name z) := by
  rw [addPoint]
  cases hr : t.session.registry.addPoint name z with
  | none => exact Does.refl t
  | some u =>
      refine does_compile (.point hr) rfl (List.append_assoc _ _ _) rfl ?_
      refine List.forall_mem_append.mpr ⟨fun _ => reports_added, fun _ => ?_⟩
      exact Registry.reports_of_flatMap fun _ _ => Entry.mem_reports_of_marker

theorem does_removeVariable (id : VariableId) :
    t.Does compiler (.removeVariable id) (t.removeVariable compiler id) := by
  rw [removeVariable]
  cases hr : t.session.registry.remove id with
  | none => exact Does.refl t
  | some u =>
      -- The gesture may end, and then the variable goes.
      let dropped := t.setDrag (if t.session.drag.point? = some id then .idle else t.session.drag)
      have hdropped : dropped.session.registry.Relisted dropped.session.view
          dropped.session.size u.2 := .removed hr
      refine Does.after_aside (u := dropped) ?_ rfl rfl (.drag _ _)
      refine does_compile hdropped rfl rfl rfl ?_
      exact List.forall_mem_singleton.mpr (Registry.reports_of_subject rfl)

theorem does_editVariable {id : VariableId} {field : Field} {text : String}
    (h : t.editVariable compiler id field text = .ok t') :
    t.Does compiler (.editVariable id field text) t' := by
  obtain ⟨⟨kind, r⟩, hr, rfl⟩ := map_eq_ok_iff.mp h
  cases kind with
  | name =>
      exact does_compile (.renamed hr) rfl (List.append_nil _).symm rfl (List.forall_mem_nil _)
  | value =>
      refine ⟨(r.placeMarkers t.session.view t.session.size).slotCalls ++
        t.session.scheduler.request.1.calls, _, List.append_assoc _ _ _, List.append_assoc _ _ _,
        ?_, .of_effect (.revalued (.typed hr))⟩
      refine List.forall_mem_append.mpr ⟨fun _ => ?_, fun _ => ?_⟩
      · exact Registry.reports_of_flatMap fun _ _ => Entry.mem_reports_of_marker
      · exact Registry.reports_of_flatMap fun _ _ => Entry.mem_reports_of_slider
  | range =>
      have hkept : t.Does compiler (.editVariable id field text)
          (t.update fun s => { s with registry := r }) :=
        does_of_effect (List.append_nil _).symm rfl (.ranged hr)
      exact hkept.tellSlider id

theorem does_slideVariable {id : VariableId} {raw : α}
    (h : t.slideVariable id raw = .ok t') : t.Does compiler event t' := by
  obtain ⟨⟨x, r⟩, hr, rfl⟩ := map_eq_ok_iff.mp h
  refine ⟨r.slotCalls ++ t.session.scheduler.request.1.calls, _, List.append_assoc _ _ _, rfl,
    fun _ => ?_, .of_effect (.revalued (.slid hr))⟩
  exact Registry.reports_of_flatMap fun _ _ => Entry.mem_reports_of_slider

end Turn

/-- What a reply tells the page. -/
def Reply.told : Reply α → List (Action α)
  | .actions as => as
  | _ => []

namespace Session

variable {compiler : Compiler} {event : Event α} {s : Session α σ}

/-- An answer comes from one effect, and what it tells of a variable is what the registry has. -/
structure Answered (compiler : Compiler) (event : Event α) (s : Session α σ) (a : Answer α σ) :
    Prop where
  responds : s.Responds compiler event a.session a.calls
  reports : ∀ x ∈ a.reply.told, a.session.registry.Reports x

theorem answered_of_does {t : Turn α σ} (h : (Turn.ofSession s).Does compiler event t) :
    s.Answered compiler event t.answer := by
  obtain ⟨cs, as, hcalls, hactions, hreports, hr⟩ := h
  constructor
  · rw [Turn.answer, hcalls]
    exact hr
  · rw [Turn.answer, hactions]
    exact hreports

theorem answered_of_effect {a : Answer α σ} (h : Effect compiler event s a.session a.calls)
    (htold : a.reply.told = []) : s.Answered compiler event a :=
  ⟨.of_effect h, htold ▸ List.forall_mem_nil _⟩

theorem answered_restyle {style : Style α} {c : Call α} (h : s.style.Restyled style c) :
    s.Answered compiler event (s.restyle style c) :=
  answered_of_effect (.restyled h) rfl

variable [KeyValueStore σ]

/-- Every event but the start of a session has one effect. -/
theorem handle_answered (compiler : Compiler) (s : Session α σ) {e : Event α}
    (he : ∀ width height, e ≠ .start width height) :
    s.Answered compiler e (s.handle compiler e) := by
  cases e with
  | start width height => exact absurd rfl (he width height)
  | resize width height => exact answered_of_does (Turn.does_resize rfl width height)
  | setResolution exponent => exact answered_of_does (Turn.does_setResolution exponent)
  | resetView => exact answered_of_does Turn.does_resetView
  | pointerDown position button modifiers =>
      exact answered_of_does (Turn.does_pointerDown position button)
  | pointerMove position modifiers => exact answered_of_does (Turn.does_pointerMove position)
  | pointerUp position button modifiers =>
      exact answered_of_does (((Turn.Does.refl _).aside (.cursor _ _)).aside (.drag _ _))
  | pointerLeave => exact answered_of_does ((Turn.Does.refl _).aside (.drag _ _))
  | wheel position delta modifiers => exact answered_of_does (Turn.does_wheel position delta)
  | keyDown key modifiers => exact answered_of_does (Turn.does_keyDown key modifiers)
  | setSource source =>
      refine answered_of_effect ?_ rfl
      rw [handle, setSource]
      split
      · exact .silent
      · exact .preferred rfl
  | graph =>
      exact answered_of_does (Turn.does_compile .same rfl (List.append_nil _).symm rfl
        (List.forall_mem_nil _))
  | redraw => exact answered_of_effect (.drawn rfl) rfl
  | setAutoRedraw auto => exact answered_of_effect (.auto auto) rfl
  | setShading x => exact answered_restyle (.shading x)
  | setContour x => exact answered_restyle (.contour x)
  | setDecorations mask => exact answered_restyle (.decorations mask)
  | setColoring mode => exact answered_restyle (.coloring mode)
  | setGrid mode => exact answered_restyle (.grid mode)
  | setTheme theme => exact answered_of_does (Turn.does_setTheme rfl theme)
  | toggleTheme => exact answered_of_does (Turn.does_setTheme rfl s.theme.toggled)
  | addSlider name x => exact answered_of_does (Turn.does_addSlider name x)
  | addPoint name z => exact answered_of_does (Turn.does_addPoint name z)
  | removeVariable id => exact answered_of_does (Turn.does_removeVariable id)
  | editVariable id field text =>
      rw [handle]
      cases ht : (Turn.ofSession s).editVariable compiler id field text with
      | error err => exact answered_of_effect .silent rfl
      | ok t => exact answered_of_does (Turn.does_editVariable ht)
  | slideVariable id raw =>
      rw [handle]
      cases ht : (Turn.ofSession s).slideVariable id raw with
      | error err => exact answered_of_effect .silent rfl
      | ok t => exact answered_of_does (Turn.does_slideVariable ht)

theorem handle_responds (compiler : Compiler) (s : Session α σ) {e : Event α}
    (he : ∀ width height, e ≠ .start width height) :
    s.Responds compiler e (s.handle compiler e).session (s.handle compiler e).calls :=
  (handle_answered compiler s he).responds

/-- The start of a session is a resize and a compilation, after the style is told. -/
theorem handle_start_answered (compiler : Compiler) (s : Session α σ) (width height : α) :
    let a := s.handle compiler (.start width height)
    ∃ s' cs ds, s.Responds compiler (.start width height) s' cs ∧
      s'.Compilation compiler true a.session ds ∧ a.calls = s.style.calls ++ cs ++ ds ∧
      ∀ x ∈ a.reply.told, a.session.registry.Reports x := by
  let styled := ((Turn.ofSession s).call s.style.calls).tell [.themeChanged s.theme]
  let resized := styled.resize width height
  have hresize : styled.Does compiler (.start width height) resized :=
    Turn.does_resize rfl width height
  obtain ⟨cs, as, hcs, has, hreports, hr⟩ := hresize
  obtain ⟨ds, verdict, hds, hverdict, hnone, hc⟩ := Turn.compile_eq compiler true resized
  refine ⟨resized.session, cs, ds, hr, hc, hds.trans (by rw [hcs]; rfl), ?_⟩
  change ∀ x ∈ (resized.compile compiler true).actions,
    (resized.compile compiler true).session.registry.Reports x
  rw [hverdict, has, Turn.registry_compile]
  -- The theme comes first and the verdict last, and neither is about a variable.
  simp only [List.forall_mem_append, List.forall_mem_singleton]
  exact ⟨⟨List.forall_mem_singleton.mpr (Registry.reports_of_subject rfl), hreports⟩,
    Registry.reports_of_subject hnone⟩

theorem handle_start (compiler : Compiler) (s : Session α σ) (width height : α) :
    ∃ s' cs ds, s.Responds compiler (.start width height) s' cs ∧
      s'.Compilation compiler true (s.handle compiler (.start width height)).session ds ∧
      (s.handle compiler (.start width height)).calls = s.style.calls ++ cs ++ ds := by
  obtain ⟨s', cs, ds, hr, hc, hcalls, -⟩ := handle_start_answered compiler s width height
  exact ⟨s', cs, ds, hr, hc, hcalls⟩

/-- What an answer tells of a variable is what the variable has after the event. -/
theorem handle_reports (compiler : Compiler) (s : Session α σ) (e : Event α) :
    ∀ x ∈ (s.handle compiler e).reply.told, (s.handle compiler e).session.registry.Reports x := by
  rcases e.start_or_other with ⟨width, height, rfl⟩ | hother
  · obtain ⟨s', cs, ds, -, -, -, hreports⟩ := handle_start_answered compiler s width height
    exact hreports
  · exact (handle_answered compiler s hother).reports

/-- What every effect keeps, and what is kept on the side and when the style is told, every answer
keeps. -/
theorem handle_keeps {P : Session α σ → List (Told α) → Prop}
    (haside : ∀ {s s' log}, s.Aside s' → P s log → P s' log)
    (heffect : ∀ {event s s' cs log}, Effect compiler event s s' cs → P s log →
      P s' (log ++ cs.map (Call.told compiler)))
    (hstyle : ∀ {s log}, P s log → P s (log ++ s.style.calls.map (Call.told compiler)))
    {log : List (Told α)} (h : P s log) (e : Event α) :
    P (s.handle compiler e).session
      (log ++ (s.handle compiler e).calls.map (Call.told compiler)) := by
  have hresponds : ∀ {event s s' cs log}, s.Responds compiler event s' cs → P s log →
      P s' (log ++ cs.map (Call.told compiler)) := by
    rintro event s s' cs log ⟨s₁, s₂, h₁, he, h₂⟩ hs
    exact haside h₂ (heffect he (haside h₁ hs))
  rcases e.start_or_other with ⟨width, height, rfl⟩ | hother
  · obtain ⟨s', cs, ds, hr, hc, hcalls⟩ := handle_start compiler s width height
    have hcompiled : Effect compiler (.start width height) s' _ ds := .compiled .same hc
    rw [hcalls, List.map_append, List.map_append, ← List.append_assoc, ← List.append_assoc]
    exact heffect hcompiled (hresponds hr (hstyle h))
  · exact hresponds (handle_responds compiler s hother) h

end Session

namespace Transcript

variable [KeyValueStore σ]

/-- Along a run it is enough to look at effects. -/
theorem run_keeps {P : Session α σ → List (Told α) → Prop}
    (haside : ∀ {s s' log}, s.Aside s' → P s log → P s' log)
    (heffect : ∀ {compiler event s s' cs log}, Session.Effect compiler event s s' cs → P s log →
      P s' (log ++ cs.map (Call.told compiler)))
    (hstyle : ∀ {compiler s log}, P s log →
      P s (log ++ s.style.calls.map (Call.told compiler)))
    {r : Transcript α σ} (h : P r.session r.log) (xs : List (Step α)) :
    P (r.run xs).session (r.run xs).log := by
  refine run_induction (P := fun r => P r.session r.log) ?_ h xs
  intro r x hr
  exact Session.handle_keeps (P := P) haside heffect hstyle hr x.event

theorem run_keeps_calls {P : Session α σ → List (Call α) → Prop}
    (haside : ∀ {s s' log}, s.Aside s' → P s log → P s' log)
    (heffect : ∀ {compiler event s s' cs log}, Session.Effect compiler event s s' cs → P s log →
      P s' (log ++ cs))
    (hstyle : ∀ {s log}, P s log → P s (log ++ s.style.calls))
    {r : Transcript α σ} (h : P r.session r.calls) (xs : List (Step α)) :
    P (r.run xs).session (r.run xs).calls := by
  refine run_keeps (P := fun s log => P s (log.map Told.call)) haside ?_ ?_ h xs
  · intro compiler event s s' cs log he hs
    rw [List.map_append, Call.map_call_told]
    exact heffect he hs
  · intro compiler s log hs
    rw [List.map_append, Call.map_call_told]
    exact hstyle hs

end Transcript

end PlotPane
