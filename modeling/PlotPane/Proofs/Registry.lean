import PlotPane.Variable.Registry

/-!
# What the operations of a registry change

An edit, a slide and a drag replace one entry, the first with the given identity, and are refused if
there is none. Each is described by what the new entry has in common with the old one. From this
follow the slots and the names after every operation, which are all that a plotter knows of a
registry.
-/

namespace PlotPane

variable {α β γ ε : Type}

theorem map_eq_ok_iff {x : Except ε β} {f : β → γ} {c : γ} :
    x.map f = .ok c ↔ ∃ b, x = .ok b ∧ f b = c := by
  cases x with
  | error err => simp [Except.map]
  | ok b => simp [Except.map]

theorem ite_eq_ok_iff {p : Prop} [Decidable p] {x : Except ε β} {err : ε} {b : β} :
    (if p then x else .error err) = .ok b ↔ p ∧ x = .ok b := by
  by_cases hp : p
  · simp [hp]
  · simp [hp]

namespace Registry

@[simp] theorem length_names (r : Registry α) : r.names.length = r.entries.length := by
  simp [names]

/-- The entries with what `f` makes of the first one that has the identity in its place. -/
def alter (id : VariableId) (f : Entry α → Option (Entry α)) : List (Entry α) → List (Entry α)
  | [] => []
  | e :: es => if e.id = id then (f e).toList ++ es else e :: alter id f es

section

variable {id : VariableId} {f : Entry α → Option (Entry α)} {e : Entry α}

theorem alter_cons_of_eq (h : e.id = id) (es : List (Entry α)) :
    alter id f (e :: es) = (f e).toList ++ es :=
  if_pos h

theorem alter_cons_of_ne (h : e.id ≠ id) (es : List (Entry α)) :
    alter id f (e :: es) = e :: alter id f es :=
  if_neg h

end

variable {r r' : Registry α} {id : VariableId} {b : β}
  {f : Entry α → Except VariableError (β × Entry α)}

theorem updateEntries_eq (id : VariableId) (f : Entry α → Except VariableError (β × Entry α))
    (es : List (Entry α)) :
    updateEntries id f es = (es.find? fun e => e.id == id).elim (.error (.unknown id)) fun e =>
      (f e).map fun u => (u.1, alter id (fun _ => some u.2) es) := by
  induction es with
  | nil => rfl
  | cons x xs ih =>
      by_cases hx : x.id = id
      · rw [updateEntries, if_pos hx, List.find?_cons_of_pos (by simpa using hx)]
        simp only [alter_cons_of_eq hx]
        rfl
      · rw [updateEntries, if_neg hx, List.find?_cons_of_neg (by simpa using hx), ih]
        simp only [alter_cons_of_ne hx]
        cases xs.find? fun e => e.id == id with
        | none => rfl
        | some e => cases hfe : f e <;> simp [Except.map, hfe]

/-- An update asks the first entry with the identity, and is refused if there is none. -/
theorem update_eq (r : Registry α) (id : VariableId)
    (f : Entry α → Except VariableError (β × Entry α)) :
    r.update id f = (r.find? id).elim (.error (.unknown id)) fun e =>
      (f e).map fun u =>
        (u.1, { r with entries := alter id (fun _ => some u.2) r.entries }) := by
  rw [update, updateEntries_eq, find?]
  cases r.entries.find? fun e => e.id == id with
  | none => rfl
  | some e => cases hfe : f e <;> simp [Except.map, hfe]

theorem updateEntries_eq_ok {es es' : List (Entry α)} (h : updateEntries id f es = .ok (b, es')) :
    ∃ i e e', es.findIdx? (fun e => e.id == id) = some i ∧ es[i]? = some e ∧
      f e = .ok (b, e') ∧ es' = es.set i e' := by
  induction es generalizing es' with
  | nil => simp [updateEntries] at h
  | cons x xs ih =>
      by_cases hx : x.id = id
      · rw [updateEntries, if_pos hx] at h
        obtain ⟨⟨c, x'⟩, hf, heq⟩ := map_eq_ok_iff.mp h
        obtain ⟨rfl, rfl⟩ := Prod.mk.inj heq
        exact ⟨0, x, x', by simp [List.findIdx?_cons, hx], rfl, hf, rfl⟩
      · rw [updateEntries, if_neg hx] at h
        obtain ⟨⟨c, xs'⟩, hu, heq⟩ := map_eq_ok_iff.mp h
        obtain ⟨rfl, rfl⟩ := Prod.mk.inj heq
        obtain ⟨i, e, e', hi, he, hf, rfl⟩ := ih hu
        refine ⟨i + 1, e, e', ?_, he, hf, rfl⟩
        simp [List.findIdx?_cons, hx, hi]

theorem update_eq_ok (h : r.update id f = .ok (b, r')) :
    ∃ i e e', r.indexOf? id = some i ∧ r.entries[i]? = some e ∧ f e = .ok (b, e') ∧
      r' = { r with entries := r.entries.set i e' } := by
  obtain ⟨⟨c, es'⟩, hu, heq⟩ := map_eq_ok_iff.mp h
  obtain ⟨rfl, rfl⟩ := Prod.mk.inj heq
  obtain ⟨i, e, e', hi, he, hf, rfl⟩ := updateEntries_eq_ok hu
  exact ⟨i, e, e', hi, he, hf, rfl⟩

theorem length_update (h : r.update id f = .ok (b, r')) :
    r'.entries.length = r.entries.length := by
  obtain ⟨i, e, e', -, -, -, rfl⟩ := update_eq_ok h
  exact List.length_set

/-- What the change of an entry keeps, the change of the registry keeps at every place. -/
theorem map_entries_update {g : Entry α → γ} (hf : ∀ e e', f e = .ok (b, e') → g e' = g e)
    (h : r.update id f = .ok (b, r')) : r'.entries.map g = r.entries.map g := by
  obtain ⟨i, e, e', -, he, hfe, rfl⟩ := update_eq_ok h
  obtain ⟨hi, rfl⟩ := List.getElem?_eq_some_iff.mp he
  have hi' : i < (r.entries.map g).length := by simpa using hi
  have hg : g e' = (r.entries.map g)[i] := by
    rw [List.getElem_map]
    exact hf _ _ hfe
  rw [List.map_set, hg, List.set_getElem_self]

/-- An entry that takes the place of the first one with its identity is found there. -/
theorem located_set {es : List (Entry α)} {i : Nat} {e' : Entry α}
    (hi : es.findIdx? (fun e => e.id == id) = some i) (hid : e'.id = id) :
    (es.set i e').findIdx? (fun e => e.id == id) = some i ∧
      (es.set i e').find? (fun e => e.id == id) = some e' := by
  obtain ⟨hlt, -, hbefore⟩ := List.findIdx?_eq_some_iff_getElem.mp hi
  have hi' : (es.set i e').findIdx? (fun e => e.id == id) = some i := by
    refine List.findIdx?_eq_some_iff_getElem.mpr ⟨by simpa using hlt, ?_, ?_⟩
    · rw [List.getElem_set_self, hid]
      exact beq_self_eq_true id
    · intro j hj
      rw [List.getElem_set_ne (by omega)]
      exact hbefore j hj
  refine ⟨hi', ?_⟩
  rw [List.find?_eq_bind_findIdx?_getElem?, hi']
  simp [hlt]

theorem find?_eq_getElem? {i : Nat} (hi : r.indexOf? id = some i) :
    r.find? id = r.entries[i]? := by
  rw [indexOf?] at hi
  rw [find?, List.find?_eq_bind_findIdx?_getElem?, hi]
  rfl

theorem id_of_find? {e : Entry α} (h : r.find? id = some e) : e.id = id := by
  simpa using List.find?_some h

theorem located_update (hid : ∀ e e', f e = .ok (b, e') → e'.id = e.id)
    (h : r.update id f = .ok (b, r')) :
    ∃ i e e', r.find? id = some e ∧ f e = .ok (b, e') ∧ r'.indexOf? id = some i ∧
      r'.find? id = some e' ∧ r'.entries = r.entries.set i e' := by
  obtain ⟨i, e, e', hi, he, hfe, rfl⟩ := update_eq_ok h
  have hfind : r.find? id = some e := (find?_eq_getElem? hi).trans he
  -- The new entry has the identity of the old one, so it is found at the same place.
  obtain ⟨hi', hfind'⟩ := located_set hi ((hid _ _ hfe).trans (id_of_find? hfind))
  exact ⟨i, e, e', hfind, hfe, hi', hfind', rfl⟩

theorem update_of_find {e e' : Entry α} (hfind : r.find? id = some e) (hf : f e = .ok (b, e')) :
    ∃ r', r.update id f = .ok (b, r') := by
  rw [update_eq, hfind, Option.elim_some, hf]
  exact ⟨_, rfl⟩

theorem push_eq_some {name : String} {c : Content α} (h : r.push name c = some (id, r')) :
    r.entries.length < capacity ∧ id = ⟨r.nextId⟩ ∧
      r' = ⟨r.entries ++ [⟨⟨r.nextId⟩, name, c⟩], r.nextId + 1⟩ := by
  rw [push] at h
  split at h
  · cases h
  · next hfull =>
      obtain ⟨rfl, rfl⟩ := Prod.mk.inj (Option.some.inj h)
      have hlt : r.entries.length < capacity := by simpa [isFull] using hfull
      exact ⟨hlt, rfl, rfl⟩

theorem length_push {name : String} {c : Content α} (h : r.push name c = some (id, r')) :
    r'.entries.length ≤ capacity := by
  obtain ⟨hlt, -, rfl⟩ := push_eq_some h
  rw [List.length_append]
  exact hlt

theorem remove_eq_some {v : Variable α} (h : r.remove id = some (v, r')) :
    ∃ e, r.find? id = some e ∧ v = e.toVariable ∧
      r' = { r with entries := r.entries.eraseP fun e => e.id == id } := by
  obtain ⟨e, he, heq⟩ := Option.map_eq_some_iff.mp h
  obtain ⟨rfl, rfl⟩ := Prod.mk.inj heq
  exact ⟨e, he, rfl, rfl⟩

theorem length_remove {v : Variable α} (h : r.remove id = some (v, r')) :
    r'.entries.length ≤ r.entries.length := by
  obtain ⟨e, -, -, rfl⟩ := remove_eq_some h
  exact List.length_eraseP_le

end Registry

variable [Scalar α]

namespace Entry

variable {e e' : Entry α} {field : Field} {text : String}

/-- What an edit does, field by field. -/
inductive Edited (text : String) : Field → Edit → Entry α → Entry α → Prop
  | name (e : Entry α) : Edited text .name .name e { e with name := text }
  | value (id : VariableId) (name : String) (s : Slider α) :
      Edited text .value .value ⟨id, name, .slider s⟩
        ⟨id, name, .slider { s with value := Scalar.ofText text }⟩
  | min (id : VariableId) (name : String) (s : Slider α) :
      Edited text .min .range ⟨id, name, .slider s⟩
        ⟨id, name, .slider { s with min := Scalar.ofText text }⟩
  | max (id : VariableId) (name : String) (s : Slider α) :
      Edited text .max .range ⟨id, name, .slider s⟩
        ⟨id, name, .slider { s with max := Scalar.ofText text }⟩
  | step (id : VariableId) (name : String) (s : Slider α) :
      Edited text .step .range ⟨id, name, .slider s⟩
        ⟨id, name, .slider { s with step := Scalar.ofText text }⟩
  | re (id : VariableId) (name : String) (z : PlanePoint α) (h : PointHandle α) :
      Edited text .re .value ⟨id, name, .point z h⟩
        ⟨id, name, .point { z with re := Scalar.ofText text } (h.setText .re text)⟩
  | im (id : VariableId) (name : String) (z : PlanePoint α) (h : PointHandle α) :
      Edited text .im .value ⟨id, name, .point z h⟩
        ⟨id, name, .point { z with im := Scalar.ofText text } (h.setText .im text)⟩

theorem edited_of_edit {k : Edit} (h : e.edit field text = .ok (k, e')) :
    Edited text field k e e' := by
  obtain ⟨id, name, content⟩ := e
  cases field <;> cases content <;> simp only [edit, Except.ok.injEq, Prod.mk.injEq,
    reduceCtorEq] at h <;> obtain ⟨rfl, rfl⟩ := h <;> constructor

/-- An edit keeps the identity. Of the rest it changes the name or the content, and a change of the
range does not reach the slot. -/
theorem edit_eq_ok {k : Edit} (h : e.edit field text = .ok (k, e')) :
    e'.id = e.id ∧ (k ≠ .name → e'.name = e.name) ∧ (k = .name → e'.content = e.content) ∧
      (k = .range → e'.content.value.slot = e.content.value.slot) := by
  cases edited_of_edit h <;> simp [Content.value, Value.slot]

theorem slid_of_slide {raw x : α} (h : e.slide raw = .ok (x, e')) :
    ∃ id name s, e = ⟨id, name, .slider s⟩ ∧ x = s.clamp (Scalar.finiteOrZero raw) ∧
      e' = ⟨id, name, .slider { s with value := x }⟩ := by
  obtain ⟨id, name, content⟩ := e
  cases content with
  | slider s =>
      obtain ⟨rfl, rfl⟩ := Prod.mk.inj (Except.ok.inj h)
      exact ⟨id, name, s, rfl, rfl, rfl⟩
  | point z handle => cases h

theorem moved_of_setPoint {z : PlanePoint α} {v : View α} {size : Option (ScreenSize α)} {u : Unit}
    (h : e.setPoint z v size = .ok (u, e')) :
    ∃ id name w handle, e = ⟨id, name, .point w handle⟩ ∧
      e' = ⟨id, name, .point z.finiteOrZero (handle.sync z.finiteOrZero v size)⟩ := by
  obtain ⟨id, name, content⟩ := e
  cases content with
  | slider s => cases h
  | point w handle =>
      obtain ⟨-, rfl⟩ := Prod.mk.inj (Except.ok.inj h)
      exact ⟨id, name, w, handle, rfl, rfl⟩

theorem slide_eq_ok {raw x : α} (h : e.slide raw = .ok (x, e')) :
    e'.id = e.id ∧ e'.name = e.name := by
  obtain ⟨id, name, s, rfl, -, rfl⟩ := slid_of_slide h
  exact ⟨rfl, rfl⟩

theorem setPoint_eq_ok {z : PlanePoint α} {v : View α} {size : Option (ScreenSize α)}
    (h : e.setPoint z v size = .ok ((), e')) : e'.id = e.id ∧ e'.name = e.name := by
  obtain ⟨id, name, w, handle, rfl, rfl⟩ := moved_of_setPoint h
  exact ⟨rfl, rfl⟩

end Entry

namespace Registry

variable {r r' : Registry α} {id : VariableId} {field : Field} {text : String}

theorem names_edit {k : Edit} (hk : k ≠ .name) (h : r.edit id field text = .ok (k, r')) :
    r'.names = r.names :=
  map_entries_update (fun _ _ he => (Entry.edit_eq_ok he).2.1 hk) h

theorem slots_edit_range (h : r.edit id field text = .ok (.range, r')) : r'.slots = r.slots :=
  map_entries_update (fun _ _ he => (Entry.edit_eq_ok he).2.2.2 rfl) h

theorem names_slide {raw x : α} (h : r.slide id raw = .ok (x, r')) : r'.names = r.names :=
  map_entries_update (fun _ _ he => (Entry.slide_eq_ok he).2) h

section

variable {z : PlanePoint α} {v : View α} {size : Option (ScreenSize α)}

theorem names_setPoint (h : r.setPoint id z v size = .ok ((), r')) : r'.names = r.names :=
  map_entries_update (fun _ _ he => (Entry.setPoint_eq_ok he).2) h

theorem slots_setPoint (h : r.setPoint id z v size = .ok ((), r')) :
    ∃ i e, r'.indexOf? id = some i ∧ r'.find? id = some e ∧
      r'.slots = r.slots.set i e.content.value.slot := by
  obtain ⟨i, -, e, -, -, hi, he, hset⟩ :=
    located_update (fun _ _ he => (Entry.setPoint_eq_ok he).1) h
  refine ⟨i, e, hi, he, ?_⟩
  rw [slots, hset, List.map_set]
  rfl

end

@[simp] theorem length_slots (r : Registry α) : r.slots.length = r.entries.length := by
  simp [slots]

section

variable (r : Registry α) (v : View α) (size : Option (ScreenSize α))

@[simp] theorem length_placeMarkers :
    (r.placeMarkers v size).entries.length = r.entries.length := by
  simp [placeMarkers]

@[simp] theorem names_placeMarkers : (r.placeMarkers v size).names = r.names := by
  simp [placeMarkers, names]

@[simp] theorem slots_placeMarkers : (r.placeMarkers v size).slots = r.slots := by
  simp only [placeMarkers, slots, List.map_map]
  refine List.map_congr_left fun e _ => ?_
  cases hc : e.content <;> simp [hc, Content.placeMarker, Content.value]

end

end Registry

end PlotPane
