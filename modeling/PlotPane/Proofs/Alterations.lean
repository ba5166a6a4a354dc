import PlotPane.Proofs.Identities

/-!
# Operations on one variable

An operation that is about one variable finds the first entry with its identity, and replaces it or
takes it out. It sees nothing of the other entries and never changes an identity, so every other
variable is found as it was.
-/

namespace PlotPane.Registry

variable {α β : Type}

/-- The variable that an operation is about, if it is about one. -/
def Operation.target? : Operation α → Option VariableId
  | .remove id | .edit id _ _ | .slide id _ | .setPoint id _ _ _ => some id
  | .addSlider _ _ | .addPoint _ _ | .placeMarkers _ _ => none

/-- The first entry with another identity stays the first. -/
theorem find?_alter_of_ne {f : Entry α → Option (Entry α)} (hf : ∀ e, ∀ e' ∈ f e, e'.id = e.id)
    {id other : VariableId} (hne : id ≠ other) (es : List (Entry α)) :
    (alter id f es).find? (fun e => e.id == other) = es.find? fun e => e.id == other := by
  induction es with
  | nil => rfl
  | cons e es ih =>
      by_cases he : e.id = id
      · have hskip {x : Entry α} (hx : x.id = e.id) (xs : List (Entry α)) :
            (x :: xs).find? (fun e => e.id == other) = xs.find? fun e => e.id == other := by
          apply List.find?_cons_of_neg
          simpa [hx, he] using hne
        rw [alter_cons_of_eq he, hskip rfl]
        cases hfe : f e with
        | none => rfl
        | some e' => exact hskip (hf e e' hfe) es
      · rw [alter_cons_of_ne he, List.find?_cons, List.find?_cons, ih]

/-- The entry after a change of it, which is as it was if the change is refused. -/
def entryOrSame (f : Entry α → Except VariableError (β × Entry α)) (e : Entry α) : Entry α :=
  ((f e).toOption.map Prod.snd).getD e

section

variable (r : Registry α) (id : VariableId) (f : Entry α → Except VariableError (β × Entry α))

theorem id_entryOrSame (hf : ∀ b e e', f e = .ok (b, e') → e'.id = e.id) (e : Entry α) :
    (entryOrSame f e).id = e.id := by
  rw [entryOrSame]
  cases h : f e with
  | error err => rfl
  | ok u => exact hf u.1 e u.2 h

theorem updateEntries_orSame (es : List (Entry α)) :
    ((updateEntries id f es).toOption.map Prod.snd).getD es =
      alter id (fun e => some (entryOrSame f e)) es := by
  induction es with
  | nil => rfl
  | cons e es ih =>
      by_cases he : e.id = id
      · rw [updateEntries, if_pos he, alter_cons_of_eq he, entryOrSame]
        cases f e with
        | error err => rfl
        | ok u => rfl
      · rw [updateEntries, if_neg he, alter_cons_of_ne he, ← ih]
        cases updateEntries id f es with
        | error err => rfl
        | ok u => rfl

theorem update_orSame :
    ((r.update id f).toOption.map Prod.snd).getD r =
      { r with entries := alter id (fun e => some (entryOrSame f e)) r.entries } := by
  rw [← updateEntries_orSame, update]
  cases updateEntries id f r.entries with
  | error err => rfl
  | ok u => rfl

theorem remove_orSame :
    ((r.remove id).map Prod.snd).getD r =
      { r with entries := alter id (fun _ => none) r.entries } := by
  have herase (es : List (Entry α)) :
      alter id (fun _ => none) es = es.eraseP fun e => e.id == id := by
    induction es with
    | nil => rfl
    | cons e es ih =>
        by_cases he : e.id = id
        · rw [alter_cons_of_eq he, List.eraseP_cons_of_pos (by simpa using he)]
          rfl
        · rw [alter_cons_of_ne he, List.eraseP_cons_of_neg (by simpa using he), ih]
  rw [herase, remove]
  cases hfind : r.find? id with
  | none =>
      have hnone : ∀ e ∈ r.entries, ¬(e.id == id) = true := List.find?_eq_none.mp hfind
      rw [List.eraseP_of_forall_not hnone]
      rfl
  | some e => rfl

end

variable [Scalar α]

/-- What an operation about one variable makes of its entry. -/
def Operation.change : Operation α → Entry α → Option (Entry α)
  | .remove _, _ => none
  | .edit _ field text, e => some (entryOrSame (fun e => e.edit field text) e)
  | .slide _ raw, e => some (entryOrSame (fun e => e.slide raw) e)
  | .setPoint _ z v size, e => some (entryOrSame (fun e => e.setPoint z v size) e)
  | .addSlider _ _, e | .addPoint _ _, e | .placeMarkers _ _, e => some e

theorem Operation.id_change (op : Operation α) (e : Entry α) :
    ∀ e' ∈ op.change e, e'.id = e.id := by
  intro e' he'
  cases op with
  | remove id => cases he'
  | edit id field text =>
      cases he'
      exact id_entryOrSame _ (fun _ _ _ h => (Entry.edit_eq_ok h).1) e
  | slide id raw =>
      cases he'
      exact id_entryOrSame _ (fun _ _ _ h => (Entry.slide_eq_ok h).1) e
  | setPoint id z v size =>
      cases he'
      exact id_entryOrSame _ (fun _ _ _ h => (Entry.setPoint_eq_ok h).1) e
  | addSlider name s => cases he'; rfl
  | addPoint name z => cases he'; rfl
  | placeMarkers v size => cases he'; rfl

section

variable (r : Registry α) {op : Operation α} {id : VariableId} (hop : op.target? = some id)

include hop

/-- An operation about one variable changes the first entry with its identity and nothing else. -/
theorem perform_eq_alter :
    r.perform op = { r with entries := alter id op.change r.entries } := by
  cases op with
  | remove a => cases hop; exact r.remove_orSame id
  | edit a field text => cases hop; exact r.update_orSame id _
  | slide a raw => cases hop; exact r.update_orSame id _
  | setPoint a z v size => cases hop; exact r.update_orSame id _
  | addSlider name s => cases hop
  | addPoint name z => cases hop
  | placeMarkers v size => cases hop

theorem find?_perform_of_ne {other : VariableId} (hne : id ≠ other) :
    (r.perform op).find? other = r.find? other := by
  rw [perform_eq_alter r hop]
  exact find?_alter_of_ne op.id_change hne r.entries

end

end PlotPane.Registry
