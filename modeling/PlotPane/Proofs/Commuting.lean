import PlotPane.Proofs.Alterations

/-!
# Requests about different variables

A request about one variable is answered by the first entry with its identity, and changes no other
entry. So two requests about different variables do not notice each other: in either order they are
answered alike and leave the same registry behind.
-/

namespace PlotPane.Registry

variable {α β : Type}

/-- What an operation gives back. -/
inductive Response (α : Type) where
  | added (id : Option VariableId)
  | removed (v : Option (Variable α))
  | edited (result : Except VariableError Edit)
  | slid (result : Except VariableError α)
  | moved (result : Except VariableError Unit)
  | placed

/-! One entry -/

theorem alter_toList_append {id : VariableId} {f : Entry α → Option (Entry α)}
    {o : Option (Entry α)} (h : ∀ e ∈ o, e.id ≠ id) (es : List (Entry α)) :
    alter id f (o.toList ++ es) = o.toList ++ alter id f es := by
  cases o with
  | none => rfl
  | some e => exact alter_cons_of_ne (h e rfl) es

/-- What happens to the first entry with one identity and to the first with another happens in any
order, so long as no identity changes. -/
theorem alter_comm {f g : Entry α → Option (Entry α)} (hf : ∀ e, ∀ e' ∈ f e, e'.id = e.id)
    (hg : ∀ e, ∀ e' ∈ g e, e'.id = e.id) {a b : VariableId} (hab : a ≠ b)
    (es : List (Entry α)) : alter a f (alter b g es) = alter b g (alter a f es) := by
  induction es with
  | nil => rfl
  | cons e es ih =>
      by_cases ha : e.id = a
      · have hb : e.id ≠ b := ha ▸ hab
        have hnew : ∀ e' ∈ f e, e'.id ≠ b := fun e' he' => hf e e' he' ▸ hb
        rw [alter_cons_of_ne hb, alter_cons_of_eq ha, alter_cons_of_eq ha,
          alter_toList_append hnew]
      · by_cases hb : e.id = b
        · have hnew : ∀ e' ∈ g e, e'.id ≠ a := fun e' he' => hg e e' he' ▸ ha
          rw [alter_cons_of_ne ha, alter_cons_of_eq hb, alter_cons_of_eq hb,
            alter_toList_append hnew]
        · rw [alter_cons_of_ne ha, alter_cons_of_ne hb, alter_cons_of_ne hb, alter_cons_of_ne ha,
            ih]

/-! The operations -/

theorem map_fst_update (r : Registry α) (id : VariableId)
    (f : Entry α → Except VariableError (β × Entry α)) :
    (r.update id f).map Prod.fst =
      (r.find? id).elim (.error (.unknown id)) fun e => (f e).map Prod.fst := by
  rw [update_eq]
  cases r.find? id with
  | none => rfl
  | some e => cases hfe : f e <;> simp [Except.map, hfe]

variable [Scalar α]

/-- What an operation gives back. One that is refused says why. -/
def respond (r : Registry α) : Operation α → Response α
  | .addSlider name s => .added ((r.addSlider name s).map Prod.fst)
  | .addPoint name z => .added ((r.addPoint name z).map Prod.fst)
  | .remove id => .removed ((r.remove id).map Prod.fst)
  | .edit id field text => .edited ((r.edit id field text).map Prod.fst)
  | .slide id raw => .slid ((r.slide id raw).map Prod.fst)
  | .setPoint id z v size => .moved ((r.setPoint id z v size).map Prod.fst)
  | .placeMarkers _ _ => .placed

section

variable (r : Registry α) {op : Operation α} {id : VariableId} (hop : op.target? = some id)

include hop

/-- An operation about one variable is answered by its entry. -/
theorem respond_congr {r' : Registry α} (h : r'.find? id = r.find? id) :
    r'.respond op = r.respond op := by
  cases op with
  | remove a =>
      cases hop
      rw [respond, respond, remove, remove, h, Option.map_map, Option.map_map]
      rfl
  | edit a field text =>
      cases hop
      rw [respond, respond, edit, edit, map_fst_update, map_fst_update, h]
  | slide a raw =>
      cases hop
      rw [respond, respond, slide, slide, map_fst_update, map_fst_update, h]
  | setPoint a z v size =>
      cases hop
      rw [respond, respond, setPoint, setPoint, map_fst_update, map_fst_update, h]
  | addSlider name s => cases hop
  | addPoint name z => cases hop
  | placeMarkers v size => cases hop

end

/-- Operations on different variables commute: on every registry, whether the variables are live or
not, two of them leave the same registry in either order, and each is answered as if the other had
not been. -/
theorem perform_perform_comm (r : Registry α) {a b : VariableId} (hab : a ≠ b)
    {op op' : Operation α} (hop : op.target? = some a) (hop' : op'.target? = some b) :
    (r.perform op).perform op' = (r.perform op').perform op ∧
      (r.perform op').respond op = r.respond op ∧ (r.perform op).respond op' = r.respond op' := by
  refine ⟨?_, ?_, ?_⟩
  · rw [perform_eq_alter _ hop', perform_eq_alter _ hop, perform_eq_alter _ hop,
      perform_eq_alter _ hop']
    exact congrArg (Registry.mk · r.nextId) (alter_comm op'.id_change op.id_change hab.symm _)
  · apply respond_congr _ hop
    exact find?_perform_of_ne _ hop' hab.symm
  · apply respond_congr _ hop'
    exact find?_perform_of_ne _ hop hab

/-- One operation takes out the first of three variables, and the other drags the last, which is in
another slot then. -/
theorem perform_perform_comm_shifted :
    let r : Registry Float :=
      empty.run [.addPoint "a" ⟨1, 2⟩, .addSlider "b" .initial, .addPoint "c" ⟨3, 4⟩]
    let op : Operation Float := .remove ⟨0⟩
    let op' : Operation Float := .setPoint ⟨2⟩ ⟨5, 0 / 0⟩ .initial (some ⟨200, 100⟩)
    (⟨0⟩ : VariableId) ≠ ⟨2⟩ ∧ op.target? = some ⟨0⟩ ∧ op'.target? = some ⟨2⟩ ∧
      r.indexOf? ⟨2⟩ = some 2 ∧ (r.perform op).indexOf? ⟨2⟩ = some 1 ∧
      (r.perform op).perform op' = (r.perform op').perform op ∧
      ((r.perform op').perform op).slots = [⟨0, 0⟩, ⟨5, 0⟩] ∧
      (r.perform op').respond op = r.respond op ∧
      (r.perform op).respond op' = .moved (.ok ()) := by
  intro r op op'
  have hab : (⟨0⟩ : VariableId) ≠ ⟨2⟩ := by decide
  have hop : op.target? = some ⟨0⟩ := rfl
  have hop' : op'.target? = some ⟨2⟩ := rfl
  obtain ⟨hcomm, hresponse, hresponse'⟩ := perform_perform_comm r hab hop hop'
  exact ⟨hab, hop, hop', by decide +kernel, by decide +kernel, hcomm, by decide +kernel, hresponse,
    hresponse'⟩

end PlotPane.Registry
