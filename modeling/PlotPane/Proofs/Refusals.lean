import PlotPane.Proofs.PanelMirror
import PlotPane.Proofs.Views

/-!
# What a session refuses

Some requests cannot be carried out: a resize to nothing, one variable more than there are slots, an
edit of a field that the variable does not have. Here it is said of each kind of request when it is
refused, and that nothing is left of it but the cursor of a wheel. A drag of the background is not
among them. If the view cannot follow the pointer it stays, but the gesture goes on from where the
pointer is, so the way to there is lost.
-/

namespace PlotPane

variable {α β σ : Type}

namespace Content

/-- Whether a variable of this kind has a field. -/
def hasField : Content α → Field → Bool
  | _, .name => true
  | .slider _, .value | .slider _, .min | .slider _, .max | .slider _, .step => true
  | .point _ _, .re | .point _ _, .im => true
  | _, _ => false

end Content

namespace Registry

variable {r : Registry α} {id : VariableId} {err : VariableError}
  {f : Entry α → Except VariableError (β × Entry α)}

theorem push_of_full (h : capacity ≤ r.entries.length) (name : String) (c : Content α) :
    r.push name c = none := by
  have hfull : r.isFull = true := by simpa [isFull] using h
  rw [push, if_pos hfull]

/-- If a change of an entry is refused for want of a field, so is the change of the registry, and
besides that only for want of the variable. -/
theorem update_eq_error_iff (lacks : Content α → Prop) {field : Field}
    (hf : ∀ e err, f e = .error err ↔ lacks e.content ∧ err = .noField e.id field) :
    r.update id f = .error err ↔
      (id ∉ r.ids ∧ err = .unknown id) ∨
        (∃ e, r.find? id = some e ∧ lacks e.content) ∧ err = .noField id field := by
  rw [update_eq, ← find?_eq_none_iff]
  cases hfind : r.find? id with
  | none => simp [eq_comm]
  | some e =>
      -- The entry that is found has the identity that was asked for.
      rw [Option.elim_some, map_eq_error_iff, hf, id_of_find? hfind]
      simp

theorem exists_update_error_iff (lacks : Content α → Prop) {field : Field}
    (hf : ∀ e err, f e = .error err ↔ lacks e.content ∧ err = .noField e.id field) :
    (∃ err, r.update id f = .error err) ↔ ∀ e, r.find? id = some e → lacks e.content := by
  simp only [update_eq_error_iff lacks hf, ← find?_eq_none_iff]
  cases r.find? id with
  | none => simp
  | some e => simp

end Registry

namespace Session

variable {s : Session α σ} {x : Except VariableError (Turn α σ)} {err : VariableError}

theorem answerOr_of_refused (h : (s.answerOr x).reply = .refused err) :
    x = .error err ∧ s.answerOr x = ⟨s, [], .refused err⟩ := by
  cases x with
  | error e =>
      cases h
      exact ⟨rfl, rfl⟩
  | ok t => cases h

theorem reply_answerOr : (s.answerOr x).reply = .refused err ↔ x = .error err := by
  constructor
  · intro h
    exact (answerOr_of_refused h).1
  · rintro rfl
    rfl

end Session

variable [Scalar α]

namespace Entry

theorem edit_eq_error_iff {field : Field} {text : String} (e : Entry α) (err : VariableError) :
    e.edit field text = .error err ↔
      e.content.hasField field = false ∧ err = .noField e.id field := by
  obtain ⟨id, name, content⟩ := e
  cases content <;> cases field <;> simp [edit, Content.hasField, eq_comm]

theorem slide_eq_error_iff {raw : α} (e : Entry α) (err : VariableError) :
    e.slide raw = .error err ↔ e.content.isPoint = true ∧ err = .noField e.id .value := by
  obtain ⟨id, name, content⟩ := e
  cases content <;> simp [slide, Content.isPoint, Content.handle?, eq_comm]

end Entry

namespace Registry

variable {r : Registry α} {id : VariableId} {err : VariableError}

theorem edit_eq_error_iff {field : Field} {text : String} :
    r.edit id field text = .error err ↔
      (id ∉ r.ids ∧ err = .unknown id) ∨
        (∃ e, r.find? id = some e ∧ e.content.hasField field = false) ∧ err = .noField id field :=
  update_eq_error_iff (fun c => c.hasField field = false) Entry.edit_eq_error_iff

theorem slide_eq_error_iff {raw : α} :
    r.slide id raw = .error err ↔
      (id ∉ r.ids ∧ err = .unknown id) ∨
        (∃ e, r.find? id = some e ∧ e.content.isPoint = true) ∧ err = .noField id .value :=
  update_eq_error_iff (fun c => c.isPoint = true) Entry.slide_eq_error_iff

end Registry

namespace Session

/-- The requests that a session does not carry out. -/
def Refuses (s : Session α σ) : Event α → Prop
  | .resize width height => ¬ (Scalar.isExtent width = true ∧ Scalar.isExtent height = true)
  | .setResolution exponent => ¬ Scalar.isExtent (Scalar.exp2 exponent) = true
  | .wheel position delta _ => ∀ size, s.size = some size →
      ∃ err, s.view.zoom position delta.dy s.settings.zoomRate size = .error err
  | .addSlider _ _ | .addPoint _ _ => Registry.capacity ≤ s.registry.entries.length
  | .removeVariable id => id ∉ s.registry.ids
  | .editVariable id field _ => ∀ e, s.registry.find? id = some e → e.content.hasField field = false
  | .slideVariable id _ => ∀ e, s.registry.find? id = some e → e.content.isPoint = true
  | _ => False

/-- What is left of a request that is refused: the session and the actions after it. -/
def afterRefusal (s : Session α σ) : Event α → Session α σ × List (Action α)
  | .wheel position _ _ =>
    let seen := { s with cursor := some position }
    (seen, seen.cursorLabel?.toList.map .cursorLabel)
  | _ => (s, [])

end Session

namespace Turn

variable (t : Turn α σ)

theorem resize_of_refused {width height : α}
    (h : ¬ (Scalar.isExtent width = true ∧ Scalar.isExtent height = true)) :
    t.resize width height = t := by
  have hsides : ScreenSize.ofSides width height = .error (.screenSize width height) :=
    if_neg fun hboth => h (Bool.and_eq_true_iff.mp hboth)
  rw [resize, hsides]

theorem setResolution_of_refused {exponent : α}
    (h : ¬ Scalar.isExtent (Scalar.exp2 exponent) = true) : t.setResolution exponent = t := by
  rw [setResolution, View.setResolution, if_neg h]

theorem addSlider_of_full (h : Registry.capacity ≤ t.session.registry.entries.length)
    (compiler : Compiler) (name : String) (x : Slider α) : t.addSlider compiler name x = t := by
  rw [addSlider, Registry.addSlider, Registry.push_of_full h]

theorem addPoint_of_full (h : Registry.capacity ≤ t.session.registry.entries.length)
    (compiler : Compiler) (name : String) (z : PlanePoint α) : t.addPoint compiler name z = t := by
  rw [addPoint, Registry.addPoint, Registry.push_of_full h]

theorem removeVariable_of_not_mem {id : VariableId} (h : id ∉ t.session.registry.ids)
    (compiler : Compiler) : t.removeVariable compiler id = t := by
  rw [removeVariable, Registry.remove_of_not_mem h]

/-- Before there is a screen there is no label either. -/
theorem wheel_of_refused {position : ScreenPoint α} {delta : WheelDelta α}
    (h : ∀ size, t.session.size = some size →
      ∃ err, t.session.view.zoom position delta.dy t.session.settings.zoomRate size = .error err) :
    t.wheel position delta = (t.setCursor position).tellLabel := by
  have hseen : (t.setCursor position).session = { t.session with cursor := some position } := rfl
  cases hsize : t.session.size with
  | none =>
      have hlabel : (t.setCursor position).session.cursorLabel? = none := by
        rw [hseen, Session.cursorLabel?]
        simp [hsize]
      have hnone : (t.setCursor position).session.size = none := hsize
      rw [wheel, hnone, tellLabel, hlabel]
      simp [tell]
  | some size =>
      obtain ⟨err, hzoom⟩ := h size hsize
      simp only [wheel, hseen, hsize, hzoom]

theorem pan_of_error {delta : ScreenPoint α} {size : ScreenSize α} {err : ViewError α}
    (hsize : t.session.size = some size) (hpan : t.session.view.pan delta size = .error err) :
    t.pan delta = t := by
  simp only [pan, hsize, hpan]

theorem pan_of_ok {delta : ScreenPoint α} {size : ScreenSize α} {v : View α}
    (hsize : t.session.size = some size) (hpan : t.session.view.pan delta size = .ok v) :
    t.pan delta = (t.update fun s => { s with view := v }).viewChanged := by
  simp only [pan, hsize, hpan]

end Turn

namespace Session

variable [KeyValueStore σ] {s : Session α σ} {err : VariableError}

theorem reply_editVariable (compiler : Compiler) {id : VariableId} {field : Field}
    {text : String} :
    (s.handle compiler (.editVariable id field text)).reply = .refused err ↔
      s.registry.edit id field text = .error err := by
  rw [handle, reply_answerOr, Turn.editVariable, map_eq_error_iff]
  rfl

theorem reply_slideVariable (compiler : Compiler) {id : VariableId} {raw : α} :
    (s.handle compiler (.slideVariable id raw)).reply = .refused err ↔
      s.registry.slide id raw = .error err := by
  rw [handle, reply_answerOr, Turn.slideVariable, map_eq_error_iff]
  rfl

theorem refuses_editVariable_iff (compiler : Compiler) {id : VariableId} {field : Field}
    {text : String} :
    (∃ err, (s.handle compiler (.editVariable id field text)).reply = .refused err) ↔
      s.Refuses (.editVariable id field text) := by
  simp only [reply_editVariable]
  exact Registry.exists_update_error_iff (fun c => c.hasField field = false)
    Entry.edit_eq_error_iff

theorem refuses_slideVariable_iff (compiler : Compiler) {id : VariableId} {raw : α} :
    (∃ err, (s.handle compiler (.slideVariable id raw)).reply = .refused err) ↔
      s.Refuses (.slideVariable id raw) := by
  simp only [reply_slideVariable]
  exact Registry.exists_update_error_iff (fun c => c.isPoint = true) Entry.slide_eq_error_iff

theorem handle_of_refuses (compiler : Compiler) {e : Event α} (h : s.Refuses e) :
    (s.handle compiler e).calls = [] ∧
      ((s.handle compiler e).session, (s.handle compiler e).reply.told) = s.afterRefusal e := by
  cases e with
  | resize width height =>
      rw [handle, Turn.resize_of_refused (.ofSession s) h]
      exact ⟨rfl, rfl⟩
  | setResolution exponent =>
      rw [handle, Turn.setResolution_of_refused (.ofSession s) h]
      exact ⟨rfl, rfl⟩
  | wheel position delta modifiers =>
      rw [handle, Turn.wheel_of_refused (.ofSession s) h]
      exact ⟨rfl, rfl⟩
  | addSlider name x =>
      rw [handle, Turn.addSlider_of_full (.ofSession s) h]
      exact ⟨rfl, rfl⟩
  | addPoint name z =>
      rw [handle, Turn.addPoint_of_full (.ofSession s) h]
      exact ⟨rfl, rfl⟩
  | removeVariable id =>
      rw [handle, Turn.removeVariable_of_not_mem (.ofSession s) h]
      exact ⟨rfl, rfl⟩
  | editVariable id field text =>
      obtain ⟨err, herr⟩ := (refuses_editVariable_iff compiler).mpr h
      rw [handle, (answerOr_of_refused herr).2]
      exact ⟨rfl, rfl⟩
  | slideVariable id raw =>
      obtain ⟨err, herr⟩ := (refuses_slideVariable_iff compiler).mpr h
      rw [handle, (answerOr_of_refused herr).2]
      exact ⟨rfl, rfl⟩
  | _ => exact False.elim h

/-- Nothing is left of a request that is refused: no call, no action and no change, but for the
cursor of a wheel and its label. And a change of a variable is refused exactly if there is no such
variable or it has no such field, where to slide a point is to ask for a field that it has not. -/
theorem refused_leaves_nothing (compiler : Compiler) (s : Session α σ) :
    (∀ e, s.Refuses e →
      let a := s.handle compiler e
      a.calls = [] ∧ (a.session, a.reply.told) = s.afterRefusal e) ∧
    (∀ id field text,
      let reply := (s.handle compiler (.editVariable id field text)).reply
      (reply = .refused (.unknown id) ↔ id ∉ s.registry.ids) ∧
      (reply = .refused (.noField id field) ↔
        ∃ e, s.registry.find? id = some e ∧ e.content.hasField field = false) ∧
      ((∃ err, reply = .refused err) ↔ s.Refuses (.editVariable id field text))) ∧
    ∀ id raw,
      let reply := (s.handle compiler (.slideVariable id raw)).reply
      (reply = .refused (.unknown id) ↔ id ∉ s.registry.ids) ∧
      (reply = .refused (.noField id .value) ↔
        ∃ e, s.registry.find? id = some e ∧ e.content.isPoint = true) ∧
      ((∃ err, reply = .refused err) ↔ s.Refuses (.slideVariable id raw)) := by
  refine ⟨fun e => handle_of_refuses compiler, ?_, ?_⟩
  · intro id field text reply
    have hreply (err : VariableError) : reply = .refused err ↔ _ :=
      (reply_editVariable compiler).trans Registry.edit_eq_error_iff
    refine ⟨?_, ?_, refuses_editVariable_iff compiler⟩
    · simpa using hreply (.unknown id)
    · simpa using hreply (.noField id field)
  · intro id raw reply
    have hreply (err : VariableError) : reply = .refused err ↔ _ :=
      (reply_slideVariable compiler).trans Registry.slide_eq_error_iff
    refine ⟨?_, ?_, refuses_slideVariable_iff compiler⟩
    · simpa using hreply (.unknown id)
    · simpa using hreply (.noField id .value)

/-- Eight points with a NaN real part, and then requests for a ninth variable, for the step of a
point, and for a variable that is not there. -/
theorem refused_leaves_nothing_full :
    let compiler : Compiler := fun _ _ => .accepted
    let point : Step Float := ⟨compiler, .addPoint "z" ⟨0.0 / 0.0, 1.0⟩⟩
    let s : Session Float MemoryStore :=
      ((Transcript.ofSession (.begun ⟨[]⟩ .initial)).run (List.replicate 8 point)).session
    s.Refuses (.addSlider "a" .initial) ∧
    (s.handle compiler (.addSlider "a" .initial)).session = s ∧
    (s.handle compiler (.addSlider "a" .initial)).calls = [] ∧
    (s.handle compiler (.editVariable ⟨3⟩ .step "1")).reply = .refused (.noField ⟨3⟩ .step) ∧
    (s.handle compiler (.slideVariable ⟨8⟩ 1.0)).reply = .refused (.unknown ⟨8⟩) := by
  intro compiler point s
  have hlength : Registry.capacity ≤ s.registry.entries.length := by decide +kernel
  have hpoint : s.registry.find? ⟨3⟩ =
      some ⟨⟨3⟩, "z", .point ⟨0.0, 1.0⟩ (.ofPoint ⟨0.0, 1.0⟩)⟩ := by decide +kernel
  have habsent : ⟨8⟩ ∉ s.registry.ids := by decide +kernel
  -- From here on the session is known by these facts only, and is not run again.
  clear_value s
  obtain ⟨hrefused, hedit, hslide⟩ := refused_leaves_nothing compiler s
  obtain ⟨hcalls, hafter⟩ := hrefused (.addSlider "a" .initial) hlength
  exact ⟨hlength, congrArg Prod.fst hafter, hcalls,
    (hedit ⟨3⟩ .step "1").2.1.mpr ⟨_, hpoint, rfl⟩, (hslide ⟨8⟩ 1.0).1.mpr habsent⟩

section

variable {last position : ScreenPoint α} {size : ScreenSize α}

/-- While the background is dragged, the view follows the pointer from where it was last seen. -/
theorem view_pointerMove_of_panning (hdrag : s.drag = .panning last) (hsize : s.size = some size)
    (compiler : Compiler) (modifiers : Modifiers) :
    (s.handle compiler (.pointerMove position modifiers)).session.view =
      s.view.perform (.pan ⟨position.x - last.x, position.y - last.y⟩ size) := by
  let dragged := (Turn.ofSession s).setDrag (.panning position)
  rw [handle, Turn.pointerMove_of_panning hdrag]
  cases hpan : s.view.pan ⟨position.x - last.x, position.y - last.y⟩ size with
  | error err =>
      have hattempt : s.view.attempt (.pan _ size) = .error err := hpan
      rw [View.perform_of_error hattempt, dragged.pan_of_error hsize hpan]
      rfl
  | ok v =>
      have hattempt : s.view.attempt (.pan _ size) = .ok v := hpan
      rw [View.perform_of_ok hattempt, dragged.pan_of_ok hsize hpan]
      exact Turn.view_viewChanged _

theorem handle_pointerMove_of_error {err : ViewError α} (hdrag : s.drag = .panning last)
    (hsize : s.size = some size)
    (hpan : s.view.pan ⟨position.x - last.x, position.y - last.y⟩ size = .error err)
    (compiler : Compiler) (modifiers : Modifiers) :
    (s.handle compiler (.pointerMove position modifiers)).calls = [] ∧
      (s.handle compiler (.pointerMove position modifiers)).session =
        { s with drag := .panning position, cursor := some position } := by
  rw [handle, Turn.pointerMove_of_panning hdrag, Turn.pan_of_error _ hsize hpan]
  exact ⟨rfl, rfl⟩

/-- If the view cannot follow the pointer, the plotter hears nothing and the view stays, but the
gesture goes on from the new position. So view and gesture are both as they were only if the pointer
did not move, and the next move pans by the way from the position that was not reached. -/
theorem rejected_pan_moves_gesture {err : ViewError α} (hdrag : s.drag = .panning last)
    (hsize : s.size = some size)
    (hpan : s.view.pan ⟨position.x - last.x, position.y - last.y⟩ size = .error err)
    (compiler : Compiler) (modifiers : Modifiers) :
    let a := s.handle compiler (.pointerMove position modifiers)
    a.calls = [] ∧
    a.session = { s with drag := .panning position, cursor := some position } ∧
    (a.session.view = s.view ∧ a.session.drag = s.drag ↔ position = last) ∧
    ∀ next, (a.session.handle compiler (.pointerMove next modifiers)).session.view =
      s.view.perform (.pan ⟨next.x - position.x, next.y - position.y⟩ size) := by
  intro a
  obtain ⟨hcalls, hsession⟩ := handle_pointerMove_of_error hdrag hsize hpan compiler modifiers
  have hview : a.session.view = s.view := by rw [hsession]
  have hdrag' : a.session.drag = .panning position := by rw [hsession]
  have hsize' : a.session.size = some size := by rw [hsession, hsize]
  refine ⟨hcalls, hsession, ?_, ?_⟩
  · rw [hdrag, hdrag']
    simp [hview]
  · intro next
    rw [view_pointerMove_of_panning hdrag' hsize', hview]

/-- The pointer is at an infinite abscissa and stays there, so the pan is by NaN. -/
theorem rejected_pan_moves_gesture_infinite :
    let p : ScreenPoint Float := ⟨1.0 / 0.0, 50.0⟩
    let compiler : Compiler := fun _ _ => .accepted
    let modifiers : Modifiers := ⟨false, false, false, false⟩
    let s : Session Float MemoryStore :=
      ((Transcript.ofSession (.begun ⟨[]⟩ .initial)).run
        [⟨compiler, .resize 100.0 100.0⟩,
          ⟨compiler, .pointerDown p .primary modifiers⟩]).session
    s.drag = .panning p ∧ s.size = some ⟨100.0, 100.0⟩ ∧
    (∃ err, s.view.pan ⟨p.x - p.x, p.y - p.y⟩ ⟨100.0, 100.0⟩ = .error err) ∧
    (s.handle compiler (.pointerMove p modifiers)).session.drag = .panning p := by
  intro p compiler modifiers s
  have hdrag : s.drag = .panning p := by decide +kernel
  have hsize : s.size = some ⟨100.0, 100.0⟩ := by decide +kernel
  have hview : s.view = .initial := by decide +kernel
  have hfinite : ¬ Scalar.isFinite (View.initial.pannedCenter ⟨p.x - p.x, p.y - p.y⟩
      ⟨100.0, 100.0⟩).re = true := by decide +kernel
  clear_value s p
  obtain ⟨err, hpan⟩ : ∃ err, s.view.pan ⟨p.x - p.x, p.y - p.y⟩ ⟨100.0, 100.0⟩ = .error err := by
    rw [hview]
    exact ⟨_, if_neg fun h => hfinite (Bool.and_eq_true_iff.mp h).1⟩
  obtain ⟨-, -, hsame, -⟩ := rejected_pan_moves_gesture hdrag hsize hpan compiler modifiers
  exact ⟨hdrag, hsize, ⟨err, hpan⟩, (hsame.mpr rfl).2.trans hdrag⟩

/-- At a scale near the largest double, a pan by two screens overflows and is rejected. When half of
it is taken back the view is as far on the other side as it should be on this one. -/
theorem rejected_pan_loses_way :
    let compiler : Compiler := fun _ _ => .accepted
    let modifiers : Modifiers := ⟨false, false, false, false⟩
    let settings : Settings Float := { Settings.initial with defaultScale := 5e307 }
    let s : Session Float MemoryStore :=
      ((Transcript.ofSession (.begun ⟨[]⟩ settings)).run
        [⟨compiler, .resize 100.0 100.0⟩,
          ⟨compiler, .pointerDown ⟨50.0, 50.0⟩ .primary modifiers⟩]).session
    let move (s : Session Float MemoryStore) (x : Float) : Session Float MemoryStore :=
      (s.handle compiler (.pointerMove ⟨x, 50.0⟩ modifiers)).session
    settings.invalid? = none ∧
    (s.view.pan ⟨250.0 - 50.0, 50.0 - 50.0⟩ ⟨100.0, 100.0⟩).toOption = none ∧
    s.drag = .panning ⟨50.0, 50.0⟩ ∧ (move s 250.0).drag = .panning ⟨250.0, 50.0⟩ ∧
    (move s 250.0).view = s.view ∧
    (move s 150.0).view.center = ⟨-1e308, 0.0⟩ ∧
    (move (move s 250.0) 150.0).view.center = ⟨1e308, 0.0⟩ := by
  decide +kernel

end

end Session

end PlotPane
