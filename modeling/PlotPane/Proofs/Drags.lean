import PlotPane.Proofs.Requests

/-!
# What is dragged is there

A gesture holds the identity of a point over any number of later events. The point is there when the
gesture begins, because its marker was hit, and it cannot go while the gesture lasts, because its
removal ends the gesture. So a drag always finds its point, and the screen on which it is dragged.
-/

namespace PlotPane

variable {α σ : Type}

theorem Registry.kinds_push {r r' : Registry α} {name : String} {c : Content α} {id : VariableId}
    (h : r.push name c = some (id, r')) : r'.kinds = r.kinds ++ [(id, c.isPoint)] := by
  rw [kinds, entries_push h, List.map_append]
  rfl

variable [Scalar α]

namespace Registry

variable {r : Registry α} {id : VariableId}

/-- Only the removal of a variable takes it out of the registry. -/
theorem mem_kinds_perform {k : VariableId × Bool} {op : Operation α} (hk : k ∈ r.kinds)
    (hop : op ≠ .remove k.1) : k ∈ (r.perform op).kinds := by
  have hpush (name : String) (c : Content α) :
      k ∈ (((r.push name c).map Prod.snd).getD r).kinds := by
    cases h : r.push name c with
    | none => exact hk
    | some u =>
        change k ∈ u.2.kinds
        rw [kinds_push h]
        exact List.mem_append_left _ hk
  cases op with
  | addSlider name s => exact hpush name _
  | addPoint name z => exact hpush name _
  | remove id =>
      cases h : r.remove id with
      | none => simpa [perform, h] using hk
      | some u =>
          obtain ⟨e, -, -, heq⟩ := remove_eq_some h
          obtain ⟨x, hx, rfl⟩ := List.mem_map.mp hk
          have hne : x.id ≠ id := by
            rintro rfl
            exact hop rfl
          have hmem : x ∈ r.entries.eraseP fun e => e.id == id := by
            rw [List.mem_eraseP_of_neg (by simpa using hne)]
            exact hx
          simp only [perform, h, Option.map_some, Option.getD_some, heq]
          exact List.mem_map_of_mem hmem
  | edit id field text => rwa [r.kinds_perform rfl]
  | slide id raw => rwa [r.kinds_perform rfl]
  | setPoint id z v size => rwa [r.kinds_perform rfl]
  | placeMarkers v size => rwa [r.kinds_perform rfl]

theorem markerAt_eq_some {p : ScreenPoint α} {radius : α} (h : r.markerAt p radius = some id) :
    ∃ e ∈ r.entries, e.id = id ∧ ∃ handle, e.content.handle? = some handle ∧
      handle.hit p radius = true := by
  obtain ⟨e, he, hid⟩ := Option.map_eq_some_iff.mp h
  have hmem : e ∈ r.entries := List.mem_reverse.mp (List.mem_of_find?_eq_some he)
  have htouched := List.find?_some he
  cases hhandle : e.content.handle? with
  | none => simp [hhandle] at htouched
  | some handle =>
      rw [hhandle] at htouched
      exact ⟨e, hmem, hid, handle, hhandle, htouched⟩

/-- Where a marker is hit, there is a point, and there is a screen. -/
theorem Placed.of_markerAt {v : View α} {size : Option (ScreenSize α)} {p : ScreenPoint α}
    {radius : α} (hr : r.Placed v size) (h : r.markerAt p radius = some id) :
    (id, true) ∈ r.kinds ∧ size.isSome = true := by
  obtain ⟨e, he, rfl, handle, hhandle, hhit⟩ := markerAt_eq_some h
  have hpoint : e.content.isPoint = true := by simp [Content.isPoint, hhandle]
  refine ⟨List.mem_map.mpr ⟨e, he, by rw [Entry.kind, hpoint]⟩, ?_⟩
  have hplaced := hr e he
  cases hc : e.content with
  | slider s => simp [hc, Content.handle?] at hhandle
  | point z handle' =>
      obtain rfl : handle' = handle := by simpa [hc, Content.handle?] using hhandle
      rw [hc, Content.placeMarker_point_eq_self_iff] at hplaced
      cases size with
      | none =>
          rw [Option.map_none] at hplaced
          simp [PointHandle.hit, hplaced] at hhit
      | some size => rfl

end Registry

namespace Turn

theorem drag_compile (compiler : Compiler) (explicit : Bool) (t : Turn α σ) :
    (t.compile compiler explicit).session.drag = t.session.drag :=
  (steady_compile compiler explicit t).drag

theorem drag_addSlider (compiler : Compiler) (name : String) (x : Slider α) (t : Turn α σ) :
    (t.addSlider compiler name x).session.drag = t.session.drag := by
  rw [addSlider]
  cases t.session.registry.addSlider name x with
  | none => rfl
  | some u => exact drag_compile compiler false _

theorem drag_pointerDown {position : ScreenPoint α} {button : Button} {t : Turn α σ}
    {id : VariableId} (h : (t.pointerDown position button).session.drag = .point id) :
    t.session.drag = .point id ∨
      t.session.registry.markerAt position t.session.settings.markerRadius = some id := by
  rw [pointerDown] at h
  split at h
  · cases hhit : t.session.registry.markerAt position t.session.settings.markerRadius with
    | none =>
        simp only [setCursor, update, hhit] at h
        cases h
    | some id' =>
        simp only [setCursor, update, hhit] at h
        cases h
        exact Or.inr rfl
  · exact Or.inl h

theorem drag_dragPoint {id id' : VariableId} {position : ScreenPoint α} {t : Turn α σ}
    (h : (t.dragPoint id' position).session.drag = .point id) : t.session.drag = .point id := by
  cases hsize : t.session.size with
  | none =>
      rw [dragPoint_of_none hsize] at h
      exact h
  | some size =>
      cases hp : t.session.registry.setPoint id' (t.session.view.toPlane size position)
          t.session.view (some size) with
      | error err =>
          rw [dragPoint_of_error hsize hp] at h
          cases h
      | ok u =>
          obtain ⟨i, e, hi, he, -⟩ := Registry.slots_setPoint hp
          rw [dragPoint_of_ok hsize hp hi he] at h
          exact h

theorem drag_pointerMove {position : ScreenPoint α} {t : Turn α σ} {id : VariableId}
    (h : (t.pointerMove position).session.drag = .point id) : t.session.drag = .point id := by
  cases hdrag : t.session.drag with
  | idle =>
      rw [pointerMove_of_idle hdrag] at h
      exact hdrag.symm.trans h
  | panning last =>
      rw [pointerMove_of_panning hdrag] at h
      have hpan := (steady_pan ⟨position.x - last.x, position.y - last.y⟩
        (t.setDrag (.panning position))).drag
      cases hpan.symm.trans h
  | point id' =>
      rw [pointerMove_of_point hdrag] at h
      exact hdrag.symm.trans (drag_dragPoint h)

theorem drag_removeVariable {compiler : Compiler} {id id' : VariableId} {t : Turn α σ}
    (h : (t.removeVariable compiler id').session.drag = .point id) :
    t.session.drag = .point id ∧ (id' = id → t.session.registry.remove id = none) := by
  rw [removeVariable] at h
  cases hr : t.session.registry.remove id' with
  | none =>
      rw [hr] at h
      refine ⟨h, ?_⟩
      rintro rfl
      exact hr
  | some u =>
      simp only [hr, drag_compile] at h
      by_cases hdragged : t.session.drag.point? = some id'
      · simp [tell, update, hdragged] at h
      · have hbefore : t.session.drag = .point id := by simpa [tell, update, hdragged] using h
        refine ⟨hbefore, ?_⟩
        rintro rfl
        rw [hbefore] at hdragged
        exact absurd rfl hdragged

theorem drag_editVariable {compiler : Compiler} {id : VariableId} {field : Field} {text : String}
    {t t' : Turn α σ} (h : t.editVariable compiler id field text = .ok t') :
    t'.session.drag = t.session.drag := by
  obtain ⟨⟨kind, r⟩, -, rfl⟩ := map_eq_ok_iff.mp h
  cases kind with
  | name => exact drag_compile compiler false _
  | value => rfl
  | range => rfl

theorem drag_addPoint (compiler : Compiler) (name : String) (z : PlanePoint α) (t : Turn α σ) :
    (t.addPoint compiler name z).session.drag = t.session.drag := by
  rw [addPoint]
  cases t.session.registry.addPoint name z with
  | none => rfl
  | some u => exact drag_compile compiler false _

end Turn

namespace Session

theorem request?_eq_remove {s : Session α σ} {e : Event α} {id : VariableId}
    (h : s.request? e = some (.remove id)) : e = .removeVariable id := by
  cases e with
  | removeVariable id' =>
      cases h
      rfl
  | pointerMove position modifiers =>
      rw [request?] at h
      split at h <;> cases h
  | _ => cases h

/-- What is dragged is a live point, on a screen. -/
def Held (s : Session α σ) : Prop :=
  ∀ id, s.drag = .point id → (id, true) ∈ s.registry.kinds ∧ s.size.isSome = true

variable {compiler : Compiler} {s : Session α σ} {e : Event α}

theorem Effect.isSome_size {event : Event α} {s' : Session α σ} {cs : List (Call α)}
    (h : Effect compiler event s s' cs) (hs : s.size.isSome = true) :
    s'.size.isSome = true := by
  cases h with
  | surfaced h => rfl
  | compiled h hc =>
      obtain ⟨error, scheduler, rfl⟩ := hc.eq_with
      exact hs
  | _ => exact hs

variable [KeyValueStore σ]

theorem isSome_size_handle (hs : s.size.isSome = true) :
    (s.handle compiler e).session.size.isSome = true := by
  refine Transcript.run_keeps_calls (P := fun s _ => s.size.isSome = true)
    (r := Transcript.ofSession s) ?_ ?_ ?_ hs [⟨compiler, e⟩]
  · intro s s' log haside hs
    rwa [haside.size]
  · intro compiler event s s' cs log heffect hs
    exact heffect.isSome_size hs
  · intro s log hs
    exact hs

/-- A point is dragged after an event only if it was dragged before and was not removed, or if its
marker was hit. -/
theorem drag_handle {id : VariableId} (h : (s.handle compiler e).session.drag = .point id) :
    (s.drag = .point id ∧ (e = .removeVariable id → s.registry.remove id = none)) ∨
      ∃ position, s.registry.markerAt position s.settings.markerRadius = some id ∧
        (s.handle compiler e).session.registry = s.registry := by
  cases e with
  | pointerDown position button modifiers =>
      rcases Turn.drag_pointerDown h with hbefore | hhit
      · exact Or.inl ⟨hbefore, by simp⟩
      · exact Or.inr ⟨position, hhit, Turn.registry_pointerDown position button _⟩
  | pointerMove position modifiers => exact Or.inl ⟨Turn.drag_pointerMove h, by simp⟩
  | pointerUp position button modifiers => cases h
  | pointerLeave => cases h
  | addSlider name x =>
      exact Or.inl ⟨(Turn.drag_addSlider compiler name x _).symm.trans h, by simp⟩
  | addPoint name z =>
      exact Or.inl ⟨(Turn.drag_addPoint compiler name z _).symm.trans h, by simp⟩
  | removeVariable id' =>
      obtain ⟨hbefore, hgone⟩ := Turn.drag_removeVariable h
      refine Or.inl ⟨hbefore, ?_⟩
      rintro ⟨⟩
      exact hgone rfl
  | editVariable id' field text =>
      rw [handle] at h
      cases ht : (Turn.ofSession s).editVariable compiler id' field text with
      | error err =>
          rw [ht] at h
          exact Or.inl ⟨h, by simp⟩
      | ok t =>
          rw [ht] at h
          exact Or.inl ⟨(Turn.drag_editVariable ht).symm.trans h, by simp⟩
  | slideVariable id' raw =>
      rw [handle] at h
      cases ht : (Turn.ofSession s).slideVariable id' raw with
      | error err =>
          rw [ht] at h
          exact Or.inl ⟨h, by simp⟩
      | ok t =>
          rw [ht] at h
          obtain ⟨u, -, rfl⟩ := map_eq_ok_iff.mp ht
          exact Or.inl ⟨h, by simp⟩
  | _ => exact Or.inl ⟨(s.steady_handle compiler rfl).drag.symm.trans h, by simp⟩

theorem held_handle (hplaced : s.registry.Placed s.view s.size) (hs : s.Held) :
    (s.handle compiler e).session.Held := by
  intro id hdrag
  rcases drag_handle hdrag with ⟨hbefore, hkept⟩ | ⟨position, hhit, hregistry⟩
  · obtain ⟨hmem, hsize⟩ := hs id hbefore
    refine ⟨?_, isSome_size_handle hsize⟩
    rw [(s.marked_handle compiler e).kinds_eq]
    cases hop : s.request? e with
    | none => exact hmem
    | some op =>
        by_cases hremove : op = .remove id
        · -- A removal of the dragged point that leaves the gesture has found nothing to remove.
          subst hremove
          have hnone := hkept (request?_eq_remove hop)
          simpa [Registry.perform, hnone] using hmem
        · exact Registry.mem_kinds_perform hmem hremove
  · obtain ⟨hmem, hsize⟩ := hplaced.of_markerAt hhit
    rw [hregistry]
    exact ⟨hmem, isSome_size_handle hsize⟩

/-- A drag of a live point moves it to what is drawn under the pointer. -/
theorem handle_pointerMove_point {id : VariableId} {name : String} {z : PlanePoint α}
    {h : PointHandle α} {size : ScreenSize α} (hdrag : s.drag = .point id)
    (hsize : s.size = some size) (hfind : s.registry.find? id = some ⟨id, name, .point z h⟩)
    (position : ScreenPoint α) (modifiers : Modifiers) :
    let a := s.handle compiler (.pointerMove position modifiers)
    let w := (s.view.toPlane size position).finiteOrZero
    a.session.drag = .point id ∧
      a.session.registry.find? id = some ⟨id, name, .point w
        ⟨Scalar.fieldText w.re, Scalar.fieldText w.im, some (s.view.toScreen size w)⟩⟩ ∧
      a.reply = .actions [.pointFields id (Scalar.fieldText w.re) (Scalar.fieldText w.im),
        .markerMoved id (s.view.toScreen size w),
        .cursorLabel (View.label s.view.scale (s.view.toPlane size position))] ∧
      ∃ index, a.session.registry.indexOf? id = some index ∧
        a.calls = .slot index w :: s.scheduler.request.1.calls := by
  intro a w
  obtain ⟨r, hr⟩ := Registry.update_of_find
    (f := fun e : Entry α => e.setPoint (s.view.toPlane size position) s.view (some size)) hfind rfl
  obtain ⟨i, e, e', he, hset, hi, hfind', -⟩ :=
    Registry.located_update (fun _ _ he => (Entry.setPoint_eq_ok he).1) hr
  obtain rfl : ⟨id, name, .point z h⟩ = e := Option.some.inj (hfind.symm.trans he)
  obtain ⟨-, rfl⟩ := Prod.mk.inj (Except.ok.inj hset)
  have hdragged := Turn.dragPoint_of_ok (t := Turn.ofSession s) hsize hr hi hfind'
  have hanswer : a =
      ((((Turn.ofSession s).dragPoint id position).setCursor position).tellLabel).answer :=
    congrArg Turn.answer (Turn.pointerMove_of_point hdrag)
  rw [hanswer, hdragged]
  refine ⟨hdrag, hfind', ?_, i, hi, rfl⟩
  simp only [Turn.answer, Turn.tellLabel, Turn.tell, Turn.setCursor, Turn.update, cursorLabel?,
    Turn.ofSession, hsize]
  rfl

end Session

namespace Transcript

variable [KeyValueStore σ]

theorem held_run {r : Transcript α σ}
    (hplaced : r.session.registry.Placed r.session.view r.session.size) (hheld : r.session.Held)
    (steps : List (Step α)) : (r.run steps).session.Held := by
  let P (r : Transcript α σ) : Prop :=
    r.session.registry.Placed r.session.view r.session.size ∧ r.session.Held
  have hstep : ∀ r x, P r → P (r.step x) := by
    rintro r x ⟨hplaced, hheld⟩
    exact ⟨placed_run hplaced [x], Session.held_handle hplaced hheld⟩
  exact (run_induction hstep ⟨hplaced, hheld⟩ steps).2

/-- A dragged point is always alive. In every state that events lead to before the counter of
identities is exhausted, a gesture that drags a point has a live point and a screen. So the next
move of the pointer moves the point to what is drawn there, tells the page of its new texts and
marker, writes its slot and goes on with the gesture. -/
theorem run_dragged_point_alive {store : σ} {settings : Settings α} {s : Session α σ}
    (hs : Session.ofSettings store settings = .ok s) (steps : List (Step α))
    (hadds : (ofSession s).additions steps < UInt32.size) :
    let r := (ofSession s).run steps
    ∀ id, r.session.drag = .point id →
      ∃ name z h size, r.session.registry.find? id = some ⟨id, name, .point z h⟩ ∧
        r.session.size = some size ∧
        ∀ compiler position modifiers,
          let a := r.session.handle compiler (.pointerMove position modifiers)
          let w := (r.session.view.toPlane size position).finiteOrZero
          let marker := r.session.view.toScreen size w
          a.session.drag = .point id ∧
            a.session.registry.find? id = some ⟨id, name, .point w
              ⟨Scalar.fieldText w.re, Scalar.fieldText w.im, some marker⟩⟩ ∧
            a.reply = .actions [.pointFields id (Scalar.fieldText w.re) (Scalar.fieldText w.im),
              .markerMoved id marker, .cursorLabel (View.label r.session.view.scale
                (r.session.view.toPlane size position))] ∧
            ∃ index, a.session.registry.indexOf? id = some index ∧
              a.calls = .slot index w :: r.session.scheduler.request.1.calls := by
  intro r id hdrag
  obtain ⟨-, rfl⟩ := Session.ofSettings_eq_ok_iff.mp hs
  have hidle : (Session.begun store settings).Held := by
    intro id h
    cases h
  have hheld : r.session.Held := held_run (Session.placed_begun store settings) hidle steps
  have hordered : r.session.registry.Ordered := ordered_run hadds
  obtain ⟨hkind, hsize⟩ := hheld id hdrag
  obtain ⟨size, hsize⟩ := Option.isSome_iff_exists.mp hsize
  obtain ⟨⟨id', name, content⟩, hmem, hkind⟩ := List.mem_map.mp hkind
  obtain ⟨rfl, hpoint⟩ := Prod.mk.inj hkind
  -- The identity has one entry only, so what is looked up is the point.
  have hfind := hordered.find?_of_mem hmem
  cases content with
  | slider x => cases hpoint
  | point z h =>
      refine ⟨name, z, h, size, hfind, hsize, ?_⟩
      intro compiler position modifiers
      exact Session.handle_pointerMove_point hdrag hsize hfind position modifiers

/-- While a point is dragged, the slider in front of it is removed. -/
theorem run_dragged_point_alive_shifted :
    let s : Session Float MemoryStore := Session.begun ⟨[]⟩ .initial
    let accepting : Compiler := fun _ _ => .accepted
    let steps : List (Step Float) :=
      [⟨accepting, .resize 100 100⟩, ⟨accepting, .addSlider "a" .initial⟩,
        ⟨accepting, .addPoint "b" ⟨0, 0⟩⟩,
        ⟨accepting, .pointerDown ⟨50, 50⟩ .primary (.ofMask 0)⟩,
        ⟨accepting, .removeVariable ⟨0⟩⟩]
    let r := (ofSession s).run steps
    Session.ofSettings ⟨[]⟩ .initial = .ok s ∧ (ofSession s).additions steps < UInt32.size ∧
      r.session.drag = .point ⟨1⟩ ∧
      (r.session.handle accepting (.pointerMove ⟨75, 50⟩ (.ofMask 0))).calls =
        [.slot 0 ⟨1.5, 0⟩, .redraw] := by
  intro s accepting steps r
  have hs : Session.ofSettings ⟨[]⟩ .initial = .ok s :=
    Session.ofSettings_eq_ok_iff.mpr ⟨by decide +kernel, rfl⟩
  have hadds : (ofSession s).additions steps < UInt32.size := by decide +kernel
  have hdrag : r.session.drag = .point ⟨1⟩ := by decide +kernel
  obtain ⟨name, z, h, size, -, hsize, hmove⟩ := run_dragged_point_alive hs steps hadds ⟨1⟩ hdrag
  have hscreen : r.session.size = some ⟨100, 100⟩ := by decide +kernel
  obtain rfl := Option.some.inj (hscreen.symm.trans hsize)
  obtain ⟨-, -, -, index, hindex, hcalls⟩ := hmove accepting ⟨75, 50⟩ (.ofMask 0)
  obtain rfl : index = 0 := by
    refine Option.some.inj (hindex.symm.trans ?_)
    decide +kernel
  refine ⟨hs, hadds, hdrag, hcalls.trans ?_⟩
  decide +kernel

end Transcript

end PlotPane
