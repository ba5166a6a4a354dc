import PlotPane.Proofs.Drags
import PlotPane.Proofs.Following

/-!
# A drag forgets its way

A move that drags a point writes all that there is to the point: its number, both texts and the
marker. Nothing of it is computed from what was there before. So a move after another one is as
good as the second alone, and a drag comes to the same end along every path of the pointer. In exact
numbers the marker ends under the pointer.
-/

namespace PlotPane

variable {α σ β γ : Type}

namespace Registry

variable {r r' : Registry α} {id : VariableId} {b : β}
  {f : Entry α → Except VariableError (β × Entry α)}
  {g : Entry α → Except VariableError (γ × Entry α)}

theorem updateEntries_updateEntries
    (hfg : ∀ e e', f e = .ok (b, e') → e'.id = e.id ∧ g e' = g e) {es es' : List (Entry α)}
    (h : updateEntries id f es = .ok (b, es')) :
    updateEntries id g es' = updateEntries id g es := by
  induction es generalizing es' with
  | nil => cases h
  | cons x xs ih =>
      by_cases hx : x.id = id
      · rw [updateEntries, if_pos hx] at h
        obtain ⟨⟨c, x'⟩, hf, heq⟩ := map_eq_ok_iff.mp h
        obtain ⟨rfl, rfl⟩ := Prod.mk.inj heq
        obtain ⟨hid, hg⟩ := hfg x x' hf
        simp only [updateEntries, if_pos hx, if_pos (hid.trans hx), hg]
      · rw [updateEntries, if_neg hx] at h
        obtain ⟨⟨c, xs'⟩, hu, heq⟩ := map_eq_ok_iff.mp h
        obtain ⟨rfl, rfl⟩ := Prod.mk.inj heq
        simp only [updateEntries, if_neg hx, ih hu]

/-- A change that overwrites whatever an earlier change of the same entry wrote makes it
unnecessary. -/
theorem update_update (hfg : ∀ e e', f e = .ok (b, e') → e'.id = e.id ∧ g e' = g e)
    (h : r.update id f = .ok (b, r')) : r'.update id g = r.update id g := by
  obtain ⟨⟨c, es'⟩, hu, heq⟩ := map_eq_ok_iff.mp h
  obtain ⟨rfl, rfl⟩ := Prod.mk.inj heq
  rw [update, update, updateEntries_updateEntries hfg hu]

theorem indexOf?_update (hid : ∀ e e', f e = .ok (b, e') → e'.id = e.id)
    (h : r.update id f = .ok (b, r')) : r'.indexOf? id = r.indexOf? id := by
  obtain ⟨i, e, e', hi, he, hfe, rfl⟩ := update_eq_ok h
  have hfind : r.find? id = some e := (find?_eq_getElem? hi).trans he
  rw [hi]
  exact (located_set hi ((hid e e' hfe).trans (id_of_find? hfind))).1

theorem handle?_of_find {name : String} {z : PlanePoint α} {handle : PointHandle α}
    (h : r.find? id = some ⟨id, name, .point z handle⟩) : r.handle? id = some handle := by
  rw [handle?, h]
  rfl

variable [Scalar α] {z : PlanePoint α} {v : View α} {size : Option (ScreenSize α)}

theorem setPoint_setPoint (h : r.setPoint id z v size = .ok ((), r')) (w : PlanePoint α) :
    r'.setPoint id w v size = r.setPoint id w v size := by
  refine update_update (fun e e' he => ?_) h
  obtain ⟨id, name, u, handle, rfl, rfl⟩ := Entry.moved_of_setPoint he
  exact ⟨rfl, rfl⟩

/-- Whether a point can be moved does not depend on where it is moved to. -/
theorem setPoint_ok_of_ok (h : r.setPoint id z v size = .ok ((), r')) (w : PlanePoint α) :
    ∃ r'', r.setPoint id w v size = .ok ((), r'') := by
  obtain ⟨i, e, e', hfind, hset, -⟩ :=
    located_update (fun _ _ he => (Entry.setPoint_eq_ok he).1) h
  obtain ⟨id', name, u, handle, rfl, -⟩ := Entry.moved_of_setPoint hset
  exact update_of_find hfind rfl

theorem setPoint_error_of_error {err : VariableError} (h : r.setPoint id z v size = .error err)
    (w : PlanePoint α) : ∃ err', r.setPoint id w v size = .error err' := by
  cases hw : r.setPoint id w v size with
  | error err' => exact ⟨err', rfl⟩
  | ok moved =>
      obtain ⟨r', hr'⟩ := setPoint_ok_of_ok hw z
      cases h.symm.trans hr'

end Registry

theorem Scheduler.request_request (s : Scheduler) : s.request.2.request.2 = s.request.2 := by
  obtain ⟨auto, ready, pending⟩ := s
  cases auto <;> cases ready <;> rfl

theorem Event.exists_of_isMove {e : Event α} (h : e.isMove = true) :
    ∃ p modifiers, e = .pointerMove p modifiers := by
  cases e with
  | pointerMove p modifiers => exact ⟨p, modifiers, rfl⟩
  | _ => cases h

theorem Call.lastOf_slotAt_request (n i : Nat) (z : PlanePoint α) (o : Outcome) :
    Call.lastOf (Call.slotAt? n) (.slot i z :: o.calls) = if i = n then some z else none := by
  have hcalls : ∀ c : Call α, c ∈ o.calls → c.slotAt? n = none := by
    intro c hc
    rw [Outcome.eq_redraw_of_mem_calls hc]
    rfl
  rw [← List.singleton_append, Call.lastOf_append_of_none hcalls, Call.lastOf_singleton,
    Call.slotAt?]

variable [Scalar α]

namespace Session

variable [KeyValueStore σ] {s : Session α σ} {id : VariableId} {size : ScreenSize α}
  (compiler : Compiler) (p : ScreenPoint α) (modifiers : Modifiers)

theorem handle_move_of_idle (hdrag : s.drag = .idle) :
    let a := s.handle compiler (.pointerMove p modifiers)
    a.session = { s with cursor := some p } ∧ a.calls = [] := by
  intro a
  have ha : a = (((Turn.ofSession s).setCursor p).tellLabel).answer :=
    congrArg Turn.answer (Turn.pointerMove_of_idle hdrag)
  rw [ha]
  exact ⟨rfl, rfl⟩

theorem handle_move_of_point (hdrag : s.drag = .point id) :
    s.handle compiler (.pointerMove p modifiers) =
      ((((Turn.ofSession s).dragPoint id p).setCursor p).tellLabel).answer :=
  congrArg Turn.answer (Turn.pointerMove_of_point hdrag)

theorem handle_move_of_unsized (hdrag : s.drag = .point id) (hsize : s.size = none) :
    let a := s.handle compiler (.pointerMove p modifiers)
    a.session = { s with cursor := some p } ∧ a.calls = [] := by
  intro a
  have ha : a = _ := handle_move_of_point compiler p modifiers hdrag
  rw [ha, Turn.dragPoint_of_none (t := Turn.ofSession s) hsize]
  exact ⟨rfl, rfl⟩

theorem handle_move_of_error {err : VariableError} (hdrag : s.drag = .point id)
    (hsize : s.size = some size)
    (hset : s.registry.setPoint id (s.view.toPlane size p) s.view (some size) = .error err) :
    let a := s.handle compiler (.pointerMove p modifiers)
    a.session = { s with drag := .idle, cursor := some p } ∧ a.calls = [] := by
  intro a
  have ha : a = _ := handle_move_of_point compiler p modifiers hdrag
  rw [ha, Turn.dragPoint_of_error (t := Turn.ofSession s) hsize hset]
  exact ⟨rfl, rfl⟩

theorem handle_move_of_ok {r : Registry α} (hdrag : s.drag = .point id)
    (hsize : s.size = some size)
    (hset : s.registry.setPoint id (s.view.toPlane size p) s.view (some size) = .ok ((), r)) :
    let a := s.handle compiler (.pointerMove p modifiers)
    a.session = { s with
      registry := r, scheduler := s.scheduler.request.2, cursor := some p } ∧
      ∃ i, s.registry.indexOf? id = some i ∧
        a.calls =
          .slot i (s.view.toPlane size p).finiteOrZero :: s.scheduler.request.1.calls := by
  intro a
  obtain ⟨i, e, e', -, hmoved, hi, he', -⟩ :=
    Registry.located_update (fun _ _ he => (Entry.setPoint_eq_ok he).1) hset
  obtain ⟨id', name, z, handle, -, rfl⟩ := Entry.moved_of_setPoint hmoved
  have hindex : r.indexOf? id = s.registry.indexOf? id :=
    Registry.indexOf?_update (fun _ _ he => (Entry.setPoint_eq_ok he).1) hset
  have ha : a = _ := handle_move_of_point compiler p modifiers hdrag
  rw [ha, Turn.dragPoint_of_ok (t := Turn.ofSession s) hsize hset hi he']
  exact ⟨rfl, i, hindex.symm.trans hi, rfl⟩

/-- Where the point can be moved, the second move writes over what the first one wrote. -/
theorem handle_move_move_of_ok {r : Registry α} (hdrag : s.drag = .point id)
    (hsize : s.size = some size)
    (hp : s.registry.setPoint id (s.view.toPlane size p) s.view (some size) = .ok ((), r))
    (compiler' : Compiler) (q : ScreenPoint α) (modifiers' : Modifiers) :
    let a := s.handle compiler (.pointerMove p modifiers)
    let b := a.session.handle compiler' (.pointerMove q modifiers')
    let c := s.handle compiler' (.pointerMove q modifiers')
    b.session = c.session ∧ ∀ i,
      Call.lastOf (Call.slotAt? i) (a.calls ++ b.calls) = Call.lastOf (Call.slotAt? i) c.calls := by
  intro a b c
  obtain ⟨r', hq⟩ := Registry.setPoint_ok_of_ok hp (s.view.toPlane size q)
  have hpq := (Registry.setPoint_setPoint hp (s.view.toPlane size q)).trans hq
  obtain ⟨ha, i, hi, hacalls⟩ := handle_move_of_ok compiler p modifiers hdrag hsize hp
  obtain ⟨hb, j, hj, hbcalls⟩ :=
    handle_move_of_ok (s := { s with
      registry := r, scheduler := s.scheduler.request.2, cursor := some p })
      compiler' q modifiers' hdrag hsize hpq
  obtain ⟨hc, k, hk, hccalls⟩ := handle_move_of_ok compiler' q modifiers' hdrag hsize hq
  have hindex : r.indexOf? id = s.registry.indexOf? id :=
    Registry.indexOf?_update (fun _ _ he => (Entry.setPoint_eq_ok he).1) hp
  obtain rfl : i = j := Option.some.inj (hi.symm.trans (hindex.symm.trans hj))
  obtain rfl : i = k := Option.some.inj (hi.symm.trans hk)
  rw [← ha] at hb hbcalls
  refine ⟨?_, fun n => ?_⟩
  · rw [hb, hc, ha, Scheduler.request_request]
  · rw [hacalls, hbcalls, hccalls, Call.lastOf_append]
    simp only [Call.lastOf_slotAt_request, ha]
    split <;> rfl

/-- A move after another one is as good as the second alone: the session is the same, and so is what
the plotter is told last of each slot. -/
theorem handle_move_move (hdrag : s.drag = .point id) (compiler' : Compiler) (q : ScreenPoint α)
    (modifiers' : Modifiers) :
    let a := s.handle compiler (.pointerMove p modifiers)
    let b := a.session.handle compiler' (.pointerMove q modifiers')
    let c := s.handle compiler' (.pointerMove q modifiers')
    b.session = c.session ∧ ∀ i,
      Call.lastOf (Call.slotAt? i) (a.calls ++ b.calls) = Call.lastOf (Call.slotAt? i) c.calls := by
  intro a b c
  cases hsize : s.size with
  | none =>
      obtain ⟨ha, hacalls⟩ := handle_move_of_unsized compiler p modifiers hdrag hsize
      obtain ⟨hb, hbcalls⟩ := handle_move_of_unsized (s := a.session) compiler' q modifiers'
        ((congrArg drag ha).trans hdrag) ((congrArg Session.size ha).trans hsize)
      obtain ⟨hc, hccalls⟩ := handle_move_of_unsized compiler' q modifiers' hdrag hsize
      exact ⟨by rw [hb, hc, ha], fun i => by rw [hacalls, hbcalls, hccalls, List.append_nil]⟩
  | some size =>
      cases hp : s.registry.setPoint id (s.view.toPlane size p) s.view (some size) with
      | error err =>
          obtain ⟨err', hq⟩ := Registry.setPoint_error_of_error hp (s.view.toPlane size q)
          -- The first move has ended the gesture, and the second one only hovers.
          obtain ⟨ha, hacalls⟩ := handle_move_of_error compiler p modifiers hdrag hsize hp
          obtain ⟨hb, hbcalls⟩ := handle_move_of_idle (s := a.session) compiler' q modifiers'
            (by rw [ha])
          obtain ⟨hc, hccalls⟩ := handle_move_of_error compiler' q modifiers' hdrag hsize hq
          exact ⟨by rw [hb, hc, ha], fun i => by rw [hacalls, hbcalls, hccalls, List.append_nil]⟩
      | ok moved =>
          exact handle_move_move_of_ok compiler p modifiers hdrag hsize hp compiler' q modifiers'

/-- Whatever a move tells of a slot is the plane point under it. -/
theorem slot_of_move (hdrag : s.drag = .point id) {i : Nat} {w : PlanePoint α}
    (h : Call.lastOf (Call.slotAt? i) (s.handle compiler (.pointerMove p modifiers)).calls =
      some w) :
    s.registry.indexOf? id = some i ∧
      ∃ size, s.size = some size ∧ w = (s.view.toPlane size p).finiteOrZero := by
  cases hsize : s.size with
  | none =>
      rw [(handle_move_of_unsized compiler p modifiers hdrag hsize).2] at h
      cases h
  | some size =>
      cases hset : s.registry.setPoint id (s.view.toPlane size p) s.view (some size) with
      | error err =>
          rw [(handle_move_of_error compiler p modifiers hdrag hsize hset).2] at h
          cases h
      | ok moved =>
          obtain ⟨-, j, hj, hcalls⟩ := handle_move_of_ok compiler p modifiers hdrag hsize hset
          rw [hcalls, Call.lastOf_slotAt_request] at h
          obtain ⟨rfl, hw⟩ := Option.ite_none_right_eq_some.mp h
          exact ⟨hj, size, rfl, (Option.some.inj hw).symm⟩

end Session

/-- A path of the pointer to `p`: moves and nothing else, at least one, and the last one to `p`. -/
structure Step.PathTo (p : ScreenPoint α) (xs : List (Step α)) : Prop where
  moves : ∀ x ∈ xs, x.event.isMove = true
  ends : ∃ compiler modifiers, xs.getLast? = some ⟨compiler, .pointerMove p modifiers⟩

namespace Transcript

section

variable [KeyValueStore σ]

/-- Along a path, only its last move matters. -/
theorem run_moves_eq_last {s : Session α σ} {id : VariableId} (hdrag : s.drag = .point id)
    {before : List (Step α)} {x : Step α} (hbefore : ∀ y ∈ before, y.event.isMove = true)
    (hx : x.event.isMove = true) :
    let t := (ofSession s).run (before ++ [x])
    let u := (ofSession s).step x
    t.session = u.session ∧
      ∀ i, Call.lastOf (Call.slotAt? i) t.calls = Call.lastOf (Call.slotAt? i) u.calls := by
  induction before using List.reverseRecOn generalizing x with
  | nil => exact ⟨rfl, fun _ => rfl⟩
  | append_singleton before y ih =>
      obtain ⟨hsession, hslots⟩ := ih (fun z hz => hbefore z (List.mem_append_left _ hz))
        (hbefore y (List.mem_append_right _ (List.mem_singleton.mpr rfl)))
      obtain ⟨p, modifiers, hy⟩ := Event.exists_of_isMove
        (hbefore y (List.mem_append_right _ (List.mem_singleton.mpr rfl)))
      obtain ⟨q, modifiers', hq⟩ := Event.exists_of_isMove hx
      obtain ⟨hforgets, hlast⟩ :=
        Session.handle_move_move y.compiler p modifiers hdrag x.compiler q modifiers'
      rw [← hy, ← hq] at hforgets hlast
      rw [run_append, run_cons, run_nil]
      refine ⟨?_, fun i => ?_⟩
      · rw [step, hsession]
        exact hforgets
      · rw [calls_step, Call.lastOf_append, hslots, hsession, ← Call.lastOf_append]
        simp only [calls_step, calls_ofSession, List.nil_append]
        exact hlast i

/-- A path is as good as a single move to its end. -/
theorem run_path_eq_move {s : Session α σ} {id : VariableId} (hdrag : s.drag = .point id)
    {p : ScreenPoint α} {moves : List (Step α)} (hmoves : Step.PathTo p moves)
    (compiler : Compiler) (modifiers : Modifiers) :
    let t := (ofSession s).run moves
    let a := s.handle compiler (.pointerMove p modifiers)
    t.session = a.session ∧
      ∀ i, Call.lastOf (Call.slotAt? i) t.calls = Call.lastOf (Call.slotAt? i) a.calls := by
  intro t a
  obtain ⟨compiler', modifiers', hlast⟩ := hmoves.ends
  obtain ⟨before, rfl⟩ := List.getLast?_eq_some_iff.mp hlast
  have ha : a = s.handle compiler' (.pointerMove p modifiers') :=
    (Session.handle_move_of_point compiler p modifiers hdrag).trans
      (Session.handle_move_of_point compiler' p modifiers' hdrag).symm
  have hbefore : ∀ y ∈ before, y.event.isMove = true :=
    fun y hy => hmoves.moves y (List.mem_append_left _ hy)
  obtain ⟨hsession, hslots⟩ :=
    run_moves_eq_last (x := ⟨compiler', .pointerMove p modifiers'⟩) hdrag hbefore rfl
  rw [ha]
  refine ⟨hsession, fun i => ?_⟩
  rw [hslots, calls_step, calls_ofSession, List.nil_append]
  rfl

theorem exists_point_of_drag {store : σ} {settings : Settings α} {s : Session α σ}
    (hs : Session.ofSettings store settings = .ok s) {steps : List (Step α)}
    (hadds : (ofSession s).additions steps < UInt32.size) {id : VariableId} :
    let r := ((ofSession s).run steps).session
    r.drag = .point id →
      ∃ name z h size, r.registry.find? id = some ⟨id, name, .point z h⟩ ∧ r.size = some size := by
  intro r hdrag
  obtain ⟨-, rfl⟩ := Session.ofSettings_eq_ok_iff.mp hs
  have hidle : (Session.begun store settings).Held := by
    intro id h
    cases h
  have hheld : r.Held := held_run (Session.placed_begun store settings) hidle steps
  have hordered : r.registry.Ordered := ordered_run hadds
  obtain ⟨hkind, hsize⟩ := hheld id hdrag
  obtain ⟨size, hsize⟩ := Option.isSome_iff_exists.mp hsize
  obtain ⟨⟨id', name, content⟩, hmem, hkind⟩ := List.mem_map.mp hkind
  obtain ⟨rfl, hpoint⟩ := Prod.mk.inj hkind
  cases content with
  | slider x => cases hpoint
  | point z h => exact ⟨name, z, h, size, hordered.find?_of_mem hmem, hsize⟩

/-- While the identities last, a path leaves the dragged point at what is drawn under its end. -/
theorem run_path_places {store : σ} {settings : Settings α} {s : Session α σ}
    (hs : Session.ofSettings store settings = .ok s) {steps moves : List (Step α)}
    (hadds : (ofSession s).additions steps < UInt32.size) {id : VariableId} {p : ScreenPoint α} :
    let r := ((ofSession s).run steps).session
    let t := (ofSession r).run moves
    r.drag = .point id → Step.PathTo p moves →
      ∃ size i name,
        let w := (r.view.toPlane size p).finiteOrZero
        r.size = some size ∧ t.session.registry.indexOf? id = some i ∧
        Call.lastOf (Call.slotAt? i) t.calls = some w ∧
        t.session.drag = .point id ∧
        t.session.registry.find? id = some ⟨id, name, .point w
          ⟨Scalar.fieldText w.re, Scalar.fieldText w.im, some (r.view.toScreen size w)⟩⟩ := by
  intro r t hdrag hmoves
  obtain ⟨name, z, h, size, hfind, hsize⟩ := exists_point_of_drag hs hadds hdrag
  let a := r.handle (fun _ _ => .accepted) (.pointerMove p (.ofMask 0))
  obtain ⟨hsession, hslots⟩ : t.session = a.session ∧ _ := run_path_eq_move hdrag hmoves _ _
  obtain ⟨hdrag', hfind', -, i, hindex, hcalls⟩ : a.session.drag = .point id ∧ _ ∧ _ ∧ _ :=
    Session.handle_pointerMove_point hdrag hsize hfind p _
  rw [← hsession] at hdrag' hfind' hindex
  refine ⟨size, i, name, hsize, hindex, ?_, hdrag', hfind'⟩
  rw [hslots, hcalls, Call.lastOf_slotAt_request, if_pos rfl]

end

end Transcript

end PlotPane
