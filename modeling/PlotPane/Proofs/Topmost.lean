import PlotPane.Proofs.Drags

/-!
# The pointer takes the topmost marker

A press of the primary button goes through the markers from the last slot to the first. Markers are
in their places, so what is found is a point that is drawn near the pointer now; and slots are in
the order in which the variables came, so it is the latest of them. Where no point is near enough,
the background is taken.
-/

namespace PlotPane

variable {α σ : Type}

/-- Where things are listed in the order of their times, a search from the back ends at the latest
of those that are searched for. -/
theorem find?_reverse_eq_some_iff {β : Type} {p : β → Bool} {xs : List (β × Nat)}
    (hxs : xs.Pairwise fun x y => x.2 < y.2) {b : β} :
    (xs.map Prod.fst).reverse.find? p = some b ↔
      ∃ time, (b, time) ∈ xs ∧ p b = true ∧ ∀ y ∈ xs, p y.1 = true → y.2 ≤ time := by
  constructor
  · intro hfind
    obtain ⟨hb, after, before, hreverse, hafter⟩ := List.find?_eq_some_iff_append.mp hfind
    have hsplit : xs.map Prod.fst = before.reverse ++ b :: after.reverse := by
      simpa using congrArg List.reverse hreverse
    obtain ⟨front, rest, rfl, -, hrest⟩ := List.map_eq_append_iff.mp hsplit
    obtain ⟨⟨b, time⟩, back, rfl, rfl, hback⟩ := List.map_eq_cons_iff.mp hrest
    obtain ⟨-, -, hearlier⟩ := List.pairwise_append.mp hxs
    refine ⟨time, List.mem_append_right _ List.mem_cons_self, hb, ?_⟩
    intro y hy hp
    rcases List.mem_append.mp hy with hfront | hrest
    · exact Nat.le_of_lt (hearlier y hfront _ List.mem_cons_self)
    · rcases List.mem_cons.mp hrest with rfl | hlater
      · exact Nat.le_refl _
      · have hmem : y.1 ∈ after := List.mem_reverse.mp (hback ▸ List.mem_map_of_mem hlater)
        exact absurd hp (by simpa using hafter y.1 hmem)
  · rintro ⟨time, hmem, hb, hlatest⟩
    obtain ⟨front, back, rfl⟩ := List.append_of_mem hmem
    obtain ⟨-, hrest, -⟩ := List.pairwise_append.mp hxs
    refine List.find?_eq_some_iff_append.mpr
      ⟨hb, (back.map Prod.fst).reverse, (front.map Prod.fst).reverse, by simp, ?_⟩
    intro c hc
    obtain ⟨y, hy, rfl⟩ := List.mem_map.mp (List.mem_reverse.mp hc)
    have hlater : time < y.2 := (List.pairwise_cons.mp hrest).1 y hy
    have hlate := hlatest y (List.mem_append_right _ (List.mem_cons_of_mem _ hy))
    rw [Bool.not_eq_true', Bool.eq_false_iff]
    intro hp
    exact absurd (hlate hp) (Nat.not_le_of_lt hlater)

namespace Registry

variable {r r' : Registry α} {now : Nat} {roll : List (VariableId × Nat)}

/-- The roll lists the identities slot by slot, and the times on it increase up to now. -/
structure Enrolled (r : Registry α) (now : Nat) (roll : List (VariableId × Nat)) : Prop where
  ids : roll.map Prod.fst = r.ids
  increasing : roll.Pairwise fun x y => x.2 < y.2
  past : ∀ x ∈ roll, x.2 < now

theorem enrolled_empty : (empty : Registry α).Enrolled 0 [] :=
  ⟨rfl, List.Pairwise.nil, List.forall_mem_nil _⟩

theorem Enrolled.later (h : r.Enrolled now roll) (hids : r'.ids = r.ids) :
    r'.Enrolled (now + 1) roll :=
  ⟨h.ids.trans hids.symm, h.increasing, fun x hx => Nat.lt_succ_of_lt (h.past x hx)⟩

theorem Enrolled.push (h : r.Enrolled now roll) {name : String} {c : Content α} :
    (((r.push name c).map Prod.snd).getD r).Enrolled (now + 1)
      (roll ++ ((r.push name c).map Prod.fst).toList.map fun id => (id, now)) := by
  cases hpush : r.push name c with
  | none =>
      have hsame : r.Enrolled (now + 1) roll := h.later rfl
      simpa using hsame
  | some u =>
      refine ⟨?_, ?_, ?_⟩
      · simpa [h.ids] using (ids_push hpush).symm
      · refine List.pairwise_append.mpr ⟨h.increasing, List.pairwise_singleton _ _, ?_⟩
        intro x hx y hy
        rw [List.mem_singleton.mp hy]
        exact h.past x hx
      · intro x hx
        rcases List.mem_append.mp hx with hold | hnew
        · exact Nat.lt_succ_of_lt (h.past x hold)
        · rw [List.mem_singleton.mp hnew]
          exact Nat.lt_succ_self now

variable [Scalar α]

/-- The live identities, each with the time at which it was given out, after an operation at the
time `now`. -/
def enroll (r : Registry α) (now : Nat) (roll : List (VariableId × Nat)) :
    Operation α → List (VariableId × Nat)
  | .remove id => roll.eraseP fun x => x.1 == id
  | op => roll ++ (r.issued? op).toList.map fun id => (id, now)

theorem ids_perform_remove (r : Registry α) (id : VariableId) :
    (r.perform (.remove id)).ids = r.ids.eraseP fun x => x == id := by
  cases hremove : r.remove id with
  | none =>
      have hnone : r.find? id = none := Option.map_eq_none_iff.mp hremove
      have hids : ∀ x ∈ r.ids, ¬ (x == id) = true := by
        intro x hx
        obtain ⟨e, he, rfl⟩ := mem_ids_iff.mp hx
        exact List.find?_eq_none.mp hnone e he
      simp [perform, hremove, List.eraseP_of_forall_not hids]
  | some u =>
      obtain ⟨e, -, -, hu⟩ := remove_eq_some hremove
      have hperform : r.perform (.remove id) = u.2 := by simp [perform, hremove]
      rw [hperform, hu, ids, ids, List.eraseP_map]
      rfl

theorem Enrolled.remove (h : r.Enrolled now roll) (id : VariableId) :
    (r.perform (.remove id)).Enrolled (now + 1) (roll.eraseP fun x => x.1 == id) := by
  have hsub : (roll.eraseP fun x => x.1 == id).Sublist roll := List.eraseP_sublist
  refine ⟨?_, h.increasing.sublist hsub, fun x hx => ?_⟩
  · rw [ids_perform_remove, ← h.ids, List.eraseP_map]
    rfl
  · exact Nat.lt_succ_of_lt (h.past x (hsub.subset hx))

theorem Enrolled.perform (h : r.Enrolled now roll) (op : Operation α) :
    (r.perform op).Enrolled (now + 1) (r.enroll now roll op) := by
  have hplace (hop : op.isInPlace = true) : (r.perform op).Enrolled (now + 1) (roll ++ []) := by
    have hids : (r.perform op).ids = r.ids := by
      rw [← map_fst_kinds, r.kinds_perform hop, map_fst_kinds]
    rw [List.append_nil]
    exact h.later hids
  cases op with
  | addSlider name s => exact h.push
  | addPoint name z => exact h.push
  | remove id => exact h.remove id
  | edit id field text => exact hplace rfl
  | slide id raw => exact hplace rfl
  | setPoint id z v size => exact hplace rfl
  | placeMarkers v size => exact hplace rfl

end Registry

variable [Scalar α]

namespace Transcript

variable [KeyValueStore σ]

/-- The roll after some more events, the first of them at the time `now`. -/
def arrivalsFrom (r : Transcript α σ) (now : Nat) (roll : List (VariableId × Nat)) :
    List (Step α) → List (VariableId × Nat)
  | [] => roll
  | x :: xs =>
    (r.step x).arrivalsFrom (now + 1)
      ((r.session.request? x.event).elim roll (r.session.registry.enroll now roll)) xs

/-- The live variables by their identities, in the order of slots, each with the number of the event
that added it. -/
def arrivals (r : Transcript α σ) (steps : List (Step α)) : List (VariableId × Nat) :=
  r.arrivalsFrom 0 [] steps

theorem enrolled_step {r : Transcript α σ} {now : Nat} {roll : List (VariableId × Nat)}
    (h : r.session.registry.Enrolled now roll) (x : Step α) :
    (r.step x).session.registry.Enrolled (now + 1)
      ((r.session.request? x.event).elim roll (r.session.registry.enroll now roll)) := by
  have hmarked := r.session.marked_handle x.compiler x.event
  have hids : (r.step x).session.registry.ids =
      (r.session.registry.run (r.session.request? x.event).toList).ids := by
    rw [← Registry.map_fst_kinds, ← Registry.map_fst_kinds]
    exact congrArg _ hmarked.kinds_eq
  cases hop : r.session.request? x.event with
  | none =>
      rw [hop] at hids
      exact h.later hids
  | some op =>
      rw [hop] at hids
      have hperform := h.perform op
      exact ⟨hperform.ids.trans hids.symm, hperform.increasing, hperform.past⟩

theorem enrolled_run {r : Transcript α σ} {now : Nat} {roll : List (VariableId × Nat)}
    (h : r.session.registry.Enrolled now roll) (steps : List (Step α)) :
    (r.run steps).session.registry.Enrolled (now + steps.length)
      (r.arrivalsFrom now roll steps) := by
  induction steps generalizing r now roll with
  | nil => exact h
  | cons x xs ih =>
      have hrest := ih (enrolled_step h x)
      rw [List.length_cons, Nat.add_comm xs.length, ← Nat.add_assoc]
      exact hrest

end Transcript

/-- Whether a plane point is drawn within `radius` pixels of a screen point. -/
def View.DrawsNear (v : View α) (size : ScreenSize α) (z : PlanePoint α) (p : ScreenPoint α)
    (radius : α) : Prop :=
  let m := v.toScreen size z
  let dx := m.x - p.x
  let dy := m.y - p.y
  dx * dx + dy * dy ≤ radius * radius

instance (v : View α) (size : ScreenSize α) (z : PlanePoint α) (p : ScreenPoint α) (radius : α) :
    Decidable (v.DrawsNear size z p radius) :=
  Scalar.decLE _ _

/-- Whether a variable is a point that is drawn, as the view and the screen are, within the radius
of a marker from `p`. -/
def Session.Under (s : Session α σ) (p : ScreenPoint α) (v : Variable α) : Prop :=
  ∃ z size, v.value = .point z ∧ s.size = some size ∧
    s.view.DrawsNear size z p s.settings.markerRadius

/-- Whether the marker of an entry, if it has one, is within `radius` pixels of `p`. -/
def Entry.touches (e : Entry α) (p : ScreenPoint α) (radius : α) : Bool :=
  e.content.handle?.any fun h => h.hit p radius

namespace Registry

theorem markerAt_eq (r : Registry α) (p : ScreenPoint α) (radius : α) :
    r.markerAt p radius =
      (r.entries.reverse.find? fun e => e.touches p radius).map Entry.id := by
  rw [markerAt]
  refine congrArg (fun f => (r.entries.reverse.find? f).map Entry.id) (funext fun e => ?_)
  rw [Entry.touches]
  cases e.content.handle? <;> rfl

/-- A marker in its place is touched exactly if its point is drawn near the pointer. -/
theorem Placed.touches_iff {s : Session α σ} (h : s.registry.Placed s.view s.size) {e : Entry α}
    (he : e ∈ s.registry.entries) (p : ScreenPoint α) :
    e.touches p s.settings.markerRadius = true ↔ s.Under p e.toVariable := by
  have hplaced := h e he
  obtain ⟨id, name, content⟩ := e
  cases content with
  | slider x =>
      constructor
      · intro htouched
        cases htouched
      · rintro ⟨z, size, hz, -⟩
        cases hz
  | point z handle =>
      rw [Content.placeMarker_point_eq_self_iff] at hplaced
      have htouches : (⟨id, name, .point z handle⟩ : Entry α).touches p s.settings.markerRadius =
          handle.hit p s.settings.markerRadius := rfl
      rw [htouches, PointHandle.hit, hplaced]
      cases hsize : s.size with
      | none => simp [Session.Under, hsize]
      | some size =>
          constructor
          · intro hhit
            exact ⟨z, size, rfl, hsize, of_decide_eq_true hhit⟩
          · rintro ⟨w, size', hw, hsize', hnear⟩
            obtain rfl := Value.point.inj hw
            obtain rfl := Option.some.inj (hsize.symm.trans hsize')
            exact decide_eq_true hnear

/-- What is grabbed is the latest of the points that are drawn near the pointer. -/
theorem Placed.markerAt_eq_some_iff {s : Session α σ} (h : s.registry.Placed s.view s.size)
    {times : List Nat} (hlength : times.length = s.registry.entries.length)
    (htimes : times.Pairwise (· < ·)) {p : ScreenPoint α} {id : VariableId} :
    let live := s.registry.entries.zip times
    s.registry.markerAt p s.settings.markerRadius = some id ↔
      ∃ x ∈ live, x.1.id = id ∧ s.Under p x.1.toVariable ∧
        ∀ y ∈ live, s.Under p y.1.toVariable → y.2 ≤ x.2 := by
  intro live
  have hfst : live.map Prod.fst = s.registry.entries := List.map_fst_zip (by omega)
  have hsnd : live.map Prod.snd = times := List.map_snd_zip (by omega)
  have hlive : live.Pairwise fun x y => x.2 < y.2 := List.pairwise_map.mp (hsnd ▸ htimes)
  have hunder {x : Entry α × Nat} (hx : x ∈ live) :
      x.1.touches p s.settings.markerRadius = true ↔ s.Under p x.1.toVariable :=
    h.touches_iff (hfst ▸ List.mem_map_of_mem hx) p
  rw [markerAt_eq, ← hfst, Option.map_eq_some_iff]
  constructor
  · rintro ⟨e, hfind, hid⟩
    obtain ⟨time, hmem, htouched, hlatest⟩ := (find?_reverse_eq_some_iff hlive).mp hfind
    refine ⟨(e, time), hmem, hid, (hunder hmem).mp htouched, ?_⟩
    intro y hy hnear
    exact hlatest y hy ((hunder hy).mpr hnear)
  · rintro ⟨⟨e, time⟩, hmem, hid, hnear, hlatest⟩
    refine ⟨e, (find?_reverse_eq_some_iff hlive).mpr ⟨time, hmem, (hunder hmem).mpr hnear, ?_⟩, hid⟩
    intro y hy htouched
    exact hlatest y hy ((hunder hy).mp htouched)

theorem Placed.markerAt_eq_none_iff {s : Session α σ} (h : s.registry.Placed s.view s.size)
    {p : ScreenPoint α} :
    s.registry.markerAt p s.settings.markerRadius = none ↔
      ∀ v ∈ s.registry.toVariables, ¬ s.Under p v := by
  rw [markerAt_eq, Option.map_eq_none_iff, List.find?_eq_none, toVariables, List.forall_mem_map]
  constructor
  · intro hnone e he hnear
    exact hnone e (List.mem_reverse.mpr he) ((h.touches_iff he p).mpr hnear)
  · intro hnone e he htouched
    have hmem := List.mem_reverse.mp he
    exact hnone e hmem ((h.touches_iff hmem p).mp htouched)

end Registry

/-- A press of the primary button changes the gesture and the cursor, and tells nobody of it. -/
theorem Session.handle_pointerDown [KeyValueStore σ] (compiler : Compiler) (s : Session α σ)
    (p : ScreenPoint α) (modifiers : Modifiers) :
    s.handle compiler (.pointerDown p .primary modifiers) =
      ⟨{ s with
          drag := (s.registry.markerAt p s.settings.markerRadius).elim (.panning p) .point
          cursor := some p }, [], .actions []⟩ := by
  cases hhit : s.registry.markerAt p s.settings.markerRadius <;>
    simp [handle, Turn.pointerDown, Turn.setCursor, Turn.setDrag, Turn.update, Turn.ofSession,
      Turn.answer, hhit]

namespace Transcript

variable [KeyValueStore σ]

/-- In every state that events lead to, a press of the primary button grabs a point exactly if that
is the one, of all points that are drawn within the radius of the pointer, that was added last; and
it takes the background exactly if there is none, which is so before there is a screen. Besides the
gesture and the cursor nothing changes, and neither the plotter nor the page is told anything. -/
theorem run_press_takes_topmost {store : σ} {settings : Settings α} {s : Session α σ}
    (hs : Session.ofSettings store settings = .ok s) (steps : List (Step α)) (compiler : Compiler)
    (p : ScreenPoint α) (modifiers : Modifiers) :
    let r := ((ofSession s).run steps).session
    let a := r.handle compiler (.pointerDown p .primary modifiers)
    let roll := (ofSession s).arrivals steps
    let live := r.registry.entries.zip (roll.map Prod.snd)
    roll.map Prod.fst = r.registry.ids ∧
    (∀ id, a.session.drag = .point id ↔
      ∃ x ∈ live, x.1.id = id ∧ r.Under p x.1.toVariable ∧
        ∀ y ∈ live, r.Under p y.1.toVariable → y.2 ≤ x.2) ∧
    (a.session.drag = .panning p ↔ ∀ v ∈ r.registry.toVariables, ¬ r.Under p v) ∧
    (r.size = none → a.session.drag = .panning p) ∧
    a = ⟨{ r with drag := a.session.drag, cursor := some p }, [], .actions []⟩ := by
  intro r a roll live
  obtain ⟨-, rfl⟩ := Session.ofSettings_eq_ok_iff.mp hs
  have hplaced : r.registry.Placed r.view r.size :=
    placed_run (Session.placed_begun store settings) steps
  have henrolled : r.registry.Enrolled (0 + steps.length) roll :=
    enrolled_run Registry.enrolled_empty steps
  have hlength : (roll.map Prod.snd).length = r.registry.entries.length := by
    simpa [Registry.ids] using congrArg List.length henrolled.ids
  have ha : a = _ := r.handle_pointerDown compiler p modifiers
  have hdrag : a.session.drag =
      (r.registry.markerAt p r.settings.markerRadius).elim (.panning p) .point := by rw [ha]
  have hpanning : a.session.drag = .panning p ↔ ∀ v ∈ r.registry.toVariables, ¬ r.Under p v := by
    rw [← hplaced.markerAt_eq_none_iff, hdrag]
    cases r.registry.markerAt p r.settings.markerRadius <;> simp
  refine ⟨henrolled.ids, ?_, hpanning, ?_, ?_⟩
  · intro id
    refine Iff.trans ?_
      (hplaced.markerAt_eq_some_iff hlength (List.pairwise_map.mpr henrolled.increasing))
    rw [hdrag]
    cases r.registry.markerAt p r.settings.markerRadius <;> simp
  · intro hsize
    refine hpanning.mpr fun v _ hunder => ?_
    obtain ⟨z, size, -, hsized, -⟩ := hunder
    cases hsize.symm.trans hsized
  · rw [hdrag]
    exact ha

/-- The first point is taken out, another is added where it was, and the second one is typed there
from elsewhere. A press there grabs the one that was added last, and a press in a corner takes the
background. -/
theorem run_press_takes_topmost_stacked :
    let s : Session Float MemoryStore := Session.begun ⟨[]⟩ .initial
    let accepting : Compiler := fun _ _ => .accepted
    let steps : List (Step Float) :=
      [⟨accepting, .resize 100 100⟩, ⟨accepting, .addPoint "a" ⟨0, 0⟩⟩,
        ⟨accepting, .addPoint "b" ⟨0, 1⟩⟩, ⟨accepting, .addSlider "c" .initial⟩,
        ⟨accepting, .removeVariable ⟨0⟩⟩, ⟨accepting, .addPoint "d" ⟨0, 0⟩⟩,
        ⟨accepting, .editVariable ⟨1⟩ .im "0.1"⟩]
    let r := ((ofSession s).run steps).session
    let press (p : ScreenPoint Float) :=
      (r.handle accepting (.pointerDown p .primary (.ofMask 0))).session
    Session.ofSettings ⟨[]⟩ .initial = .ok s ∧
      (ofSession s).arrivals steps = [(⟨1⟩, 2), (⟨2⟩, 3), (⟨3⟩, 5)] ∧
      r.Under ⟨50, 50⟩ ⟨⟨1⟩, "b", .point ⟨0, 0.1⟩⟩ ∧ r.Under ⟨50, 50⟩ ⟨⟨3⟩, "d", .point ⟨0, 0⟩⟩ ∧
      (press ⟨50, 50⟩).drag = .point ⟨3⟩ ∧
      (press ⟨0, 0⟩).drag = .panning ⟨0, 0⟩ ∧ ∀ v ∈ r.registry.toVariables, ¬ r.Under ⟨0, 0⟩ v := by
  intro s accepting steps r press
  have hs : Session.ofSettings ⟨[]⟩ .initial = .ok s :=
    Session.ofSettings_eq_ok_iff.mpr ⟨by decide +kernel, rfl⟩
  have harrivals : (ofSession s).arrivals steps = [(⟨1⟩, 2), (⟨2⟩, 3), (⟨3⟩, 5)] := by
    decide +kernel
  have hentries : r.registry.entries =
      [⟨⟨1⟩, "b", .point ⟨0, 0.1⟩ ⟨"0", "0.1", some ⟨50, 48.333333333333336⟩⟩⟩,
        ⟨⟨2⟩, "c", .slider .initial⟩, ⟨⟨3⟩, "d", .point ⟨0, 0⟩ ⟨"0", "0", some ⟨50, 50⟩⟩⟩] := by
    decide +kernel
  have hcorner : (press ⟨0, 0⟩).drag = .panning ⟨0, 0⟩ := by decide +kernel
  have hsize : r.size = some ⟨100, 100⟩ := by decide +kernel
  have hb : r.view.DrawsNear ⟨100, 100⟩ ⟨0, 0.1⟩ ⟨50, 50⟩ r.settings.markerRadius := by
    decide +kernel
  have hd : r.view.DrawsNear ⟨100, 100⟩ ⟨0, 0⟩ ⟨50, 50⟩ r.settings.markerRadius := by
    decide +kernel
  clear_value s steps accepting
  obtain ⟨-, hpoint, -⟩ := run_press_takes_topmost hs steps accepting ⟨50, 50⟩ (.ofMask 0)
  obtain ⟨-, -, hpanning, -⟩ := run_press_takes_topmost hs steps accepting ⟨0, 0⟩ (.ofMask 0)
  refine ⟨hs, harrivals, ⟨_, _, rfl, hsize, hb⟩, ⟨_, _, rfl, hsize, hd⟩, (hpoint ⟨3⟩).mpr ?_,
    hcorner, hpanning.mp hcorner⟩
  rw [harrivals, hentries]
  refine ⟨_, List.getElem_mem (by decide : 2 < 3), rfl, ⟨_, _, rfl, hsize, hd⟩, ?_⟩
  simp

end Transcript

end PlotPane
