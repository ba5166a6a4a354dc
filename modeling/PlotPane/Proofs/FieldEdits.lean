import PlotPane.Proofs.FieldTexts
import PlotPane.Proofs.Identities

/-!
# An edit touches one field

A variable is seen here field by field: what stands in each field that it has, and, beside the
fields, the texts and the marker of a point. An accepted edit of a registry puts what was typed into
one field of one variable. What the caller is told of the edit says which of the names and the slots
can differ after it.
-/

namespace PlotPane

variable {α β : Type}

/-- What stands in a field. -/
inductive Cell (α : Type) where
  | text (s : String)
  | number (x : α)
  deriving DecidableEq, Repr

namespace Field

/-- What typed text puts into a field. -/
def typed [Scalar α] (field : Field) (text : String) : Cell α :=
  match field with
  | .name => .text text
  | _ => .number (Scalar.ofText text)

/-- What an edit of the field is reported as. -/
def outcome : Field → Edit
  | .name => .name
  | .value | .re | .im => .value
  | .min | .max | .step => .range

end Field

/-- The number in a field. A slider has no parts, and a point has no range. -/
def Content.number? : Content α → Field → Option α
  | .slider s, .value => some s.value
  | .slider s, .min => some s.min
  | .slider s, .max => some s.max
  | .slider s, .step => some s.step
  | .point z _, .re => some z.re
  | .point z _, .im => some z.im
  | _, _ => none

/-- A slider with another number in one of its fields. -/
def Slider.setNumber (s : Slider α) (field : Field) (x : α) : Slider α :=
  match field with
  | .value => { s with value := x }
  | .min => { s with min := x }
  | .max => { s with max := x }
  | .step => { s with step := x }
  | _ => s

namespace Entry

/-- What stands in a field, if the variable has it. -/
def cell? (e : Entry α) : Field → Option (Cell α)
  | .name => some (.text e.name)
  | field => (e.content.number? field).map .number

/-- The text that is shown for a part of a point. -/
def text? (e : Entry α) (part : Part) : Option String :=
  e.content.handle?.map fun h => h.text part

def marker? (e : Entry α) : Option (Option (ScreenPoint α)) :=
  e.content.handle?.map PointHandle.marker

variable [Scalar α]

/-- `e'` is `e` with `text` typed into one of its fields. -/
structure Retyped (field : Field) (text : String) (e e' : Entry α) : Prop where
  id : e'.id = e.id
  cell : e'.cell? field = some (field.typed text)
  other_cell : ∀ f, f ≠ field → e'.cell? f = e.cell? f
  text : ∀ part, part.field = field → e'.text? part = (e.text? part).map fun _ => text
  other_text : ∀ part, part.field ≠ field → e'.text? part = e.text? part
  marker : e'.marker? = e.marker?

variable {e e' : Entry α} {field : Field} {text : String} {k : Edit}

theorem retyped_setNumber (id : VariableId) (name : String) (s : Slider α)
    (hfield : ((Content.slider s).number? field).isSome = true) (text : String) :
    (⟨id, name, .slider s⟩ : Entry α).Retyped field text
      ⟨id, name, .slider (s.setNumber field (Scalar.ofText text))⟩ := by
  generalize hx : (Scalar.ofText text : α) = x
  refine ⟨rfl, ?_, fun f hf => ?_, fun _ _ => rfl, fun _ _ => rfl, rfl⟩
  · cases field <;> first | exact congrArg (fun x => some (Cell.number x)) hx.symm | cases hfield
  · cases field <;> cases f <;> first | rfl | exact absurd rfl hf

theorem retyped_setPart (id : VariableId) (name : String) (z : PlanePoint α) (h : PointHandle α)
    (part : Part) (text : String) :
    (⟨id, name, .point z h⟩ : Entry α).Retyped part.field text
      ⟨id, name, .point (z.setPart part (Scalar.ofText text)) (h.setText part text)⟩ := by
  generalize hx : (Scalar.ofText text : α) = x
  refine ⟨rfl, ?_, fun f hf => ?_, fun other hother => ?_, fun other hother => ?_, ?_⟩
  · cases part <;> exact congrArg (fun x => some (Cell.number x)) hx.symm
  · cases part <;> cases f <;> first | rfl | exact absurd rfl hf
  · cases part <;> cases other <;> first | rfl | cases hother
  · cases part <;> cases other <;> first | rfl | exact absurd rfl hother
  · cases part <;> rfl

theorem retyped_of_edit (h : e.edit field text = .ok (k, e')) :
    e.Retyped field text e' ∧ k = field.outcome := by
  cases edited_of_edit h with
  | name =>
      refine ⟨⟨rfl, rfl, fun f hf => ?_, fun part hpart => ?_, fun _ _ => rfl, rfl⟩, rfl⟩
      · cases f with
        | name => exact absurd rfl hf
        | _ => rfl
      · cases part <;> cases hpart
  | value id name s => exact ⟨retyped_setNumber id name s rfl text, rfl⟩
  | min id name s => exact ⟨retyped_setNumber id name s rfl text, rfl⟩
  | max id name s => exact ⟨retyped_setNumber id name s rfl text, rfl⟩
  | step id name s => exact ⟨retyped_setNumber id name s rfl text, rfl⟩
  | re id name z handle => exact ⟨retyped_setPart id name z handle .re text, rfl⟩
  | im id name z handle => exact ⟨retyped_setPart id name z handle .im text, rfl⟩

/-- An entry takes what is typed into each field that it has. -/
theorem edit_isOk_iff : (∃ u, e.edit field text = .ok u) ↔ (e.cell? field).isSome = true := by
  obtain ⟨id, name, content⟩ := e
  cases field <;> cases content <;> simp [edit, cell?, Content.number?]

end Entry

namespace Registry

theorem updateEntries_append {id : VariableId} {f : Entry α → Except VariableError (β × Entry α)}
    {before after : List (Entry α)} {e : Entry α} (hbefore : ∀ d ∈ before, d.id ≠ id)
    (he : e.id = id) :
    updateEntries id f (before ++ e :: after) =
      (f e).map fun u => (u.1, before ++ u.2 :: after) := by
  induction before with
  | nil => rw [List.nil_append, updateEntries, if_pos he]; rfl
  | cons d before ih =>
      rw [List.cons_append, updateEntries, if_neg (hbefore d List.mem_cons_self),
        ih fun d hd => hbefore d (List.mem_cons_of_mem _ hd)]
      cases f e <;> rfl

/-- An entry that takes the place of another changes a list that is read off the entries in this
place at most. -/
theorem getElem?_map_replace {g : Entry α → β} (before after : List (Entry α)) (e e' : Entry α)
    {j : Nat} (hj : j ≠ before.length) :
    ((before ++ e' :: after).map g)[j]? = ((before ++ e :: after).map g)[j]? := by
  have hset : before ++ e' :: after = (before ++ e :: after).set before.length e' := by simp
  rw [hset, List.map_set, List.getElem?_set_ne hj.symm]

theorem Ordered.update_of_mem {r : Registry α} (h : r.Ordered) {id : VariableId} (hid : id ∈ r.ids)
    (f : Entry α → Except VariableError (β × Entry α)) :
    ∃ before e after, r.entries = before ++ e :: after ∧ e.id = id ∧
      (∀ d ∈ before ++ after, d.id ≠ id) ∧ r.indexOf? id = some before.length ∧
      r.update id f =
        (f e).map fun u => (u.1, { r with entries := before ++ u.2 :: after }) := by
  obtain ⟨before, e, after, hsplit, he, hothers, -⟩ := h.remove_of_mem hid
  refine ⟨before, e, after, hsplit, he, hothers, ?_, ?_⟩
  · have hplace : r.entries[before.length]? = some e := by simp [hsplit]
    exact h.indexOf?_eq_some_iff.mpr ⟨e, hplace, he⟩
  · have hbefore : ∀ d ∈ before, d.id ≠ id := fun d hd => hothers d (List.mem_append_left _ hd)
    rw [update, hsplit, updateEntries_append hbefore he]
    cases f e <;> rfl

variable [Scalar α] {r r' : Registry α} {id : VariableId} {field : Field} {text : String}

theorem slots_edit_name (h : r.edit id field text = .ok (.name, r')) : r'.slots = r.slots := by
  refine map_entries_update (fun _ _ he => ?_) h
  rw [(Entry.edit_eq_ok he).2.2.1 rfl]

/-- An accepted edit replaces the one entry with the identity. -/
theorem Ordered.edit_eq_ok (h : r.Ordered) {k : Edit}
    (hedit : r.edit id field text = .ok (k, r')) :
    ∃ before e e' after,
      r.entries = before ++ e :: after ∧ r' = { r with entries := before ++ e' :: after } ∧
      (∀ d ∈ before ++ after, d.id ≠ id) ∧ e.id = id ∧ r.indexOf? id = some before.length ∧
      e.edit field text = .ok (k, e') := by
  obtain ⟨i, -, -, hi, -⟩ := update_eq_ok hedit
  obtain ⟨d, hd, hdid⟩ := h.indexOf?_eq_some_iff.mp hi
  have hid : id ∈ r.ids := mem_ids_iff.mpr ⟨d, List.mem_of_getElem? hd, hdid⟩
  obtain ⟨before, e, after, hsplit, he, hothers, hindex, hupdate⟩ :=
    h.update_of_mem hid fun e => e.edit field text
  obtain ⟨⟨k', e'⟩, hentry, heq⟩ := map_eq_ok_iff.mp (hupdate.symm.trans hedit)
  obtain ⟨rfl, rfl⟩ := Prod.mk.inj heq
  exact ⟨before, e, e', after, hsplit, rfl, hothers, he, hindex, hentry⟩

theorem Ordered.edit_isOk_iff (h : r.Ordered) :
    (∃ u, r.edit id field text = .ok u) ↔
      ∃ e ∈ r.entries, e.id = id ∧ (e.cell? field).isSome = true := by
  constructor
  · rintro ⟨⟨k, r'⟩, hedit⟩
    obtain ⟨i, e, e', hi, he, hentry, -⟩ := update_eq_ok hedit
    have hid : e.id = id := id_of_find? ((find?_eq_getElem? hi).trans he)
    exact ⟨e, List.mem_of_getElem? he, hid, Entry.edit_isOk_iff.mp ⟨_, hentry⟩⟩
  · rintro ⟨e, he, rfl, hcell⟩
    obtain ⟨⟨k, e'⟩, hentry⟩ : ∃ u, e.edit field text = .ok u := Entry.edit_isOk_iff.mpr hcell
    obtain ⟨r', hr'⟩ :=
      update_of_find (f := fun e => e.edit field text) (h.find?_of_mem he) hentry
    exact ⟨_, hr'⟩

/-- An accepted edit touches one field. It replaces the one entry with the given identity, in which
it sets the field to what was typed, and of a point also the text of the part; every other field,
the other text, the marker and the kind stay. A new name reaches no slot and no other name, a new
value no name and no other slot, and a new range neither names nor slots. An edit is accepted
exactly if the variable is there and has the field. -/
theorem run_edit_touches_field (ops : List (Operation α))
    (hadds : ((empty : Registry α).issued ops).length < UInt32.size) (id : VariableId)
    (field : Field) (text : String) :
    let r : Registry α := empty.run ops
    (∀ k r', r.edit id field text = .ok (k, r') →
      ∃ before e e' after,
        r.entries = before ++ e :: after ∧ r' = { r with entries := before ++ e' :: after } ∧
        (∀ d ∈ before ++ after, d.id ≠ id) ∧ e.id = id ∧ r.indexOf? id = some before.length ∧
        e.Retyped field text e' ∧ k = field.outcome ∧
        (k = .name → r'.slots = r.slots ∧
          ∀ j, j ≠ before.length → r'.names[j]? = r.names[j]?) ∧
        (k = .value → r'.names = r.names ∧
          ∀ j, j ≠ before.length → r'.slots[j]? = r.slots[j]?) ∧
        (k = .range → r'.names = r.names ∧ r'.slots = r.slots)) ∧
    ((∃ u, r.edit id field text = .ok u) ↔
      ∃ e ∈ r.entries, e.id = id ∧ (e.cell? field).isSome = true) := by
  intro r
  have hr : r.Counted (0 + ((empty : Registry α).issued ops).length) := counted_empty.run ops
  have hordered : r.Ordered := hr.ordered (by omega)
  refine ⟨?_, hordered.edit_isOk_iff⟩
  intro k r' h
  obtain ⟨before, e, e', after, hsplit, rfl, hothers, he, hindex, hentry⟩ := hordered.edit_eq_ok h
  obtain ⟨hretyped, houtcome⟩ := Entry.retyped_of_edit hentry
  refine ⟨before, e, e', after, hsplit, rfl, hothers, he, hindex, hretyped, houtcome, ?_, ?_, ?_⟩
  · rintro rfl
    refine ⟨slots_edit_name h, fun j hj => ?_⟩
    rw [names, names, hsplit]
    exact getElem?_map_replace before after e e' hj
  · rintro rfl
    refine ⟨names_edit (by decide) h, fun j hj => ?_⟩
    rw [slots, slots, hsplit]
    exact getElem?_map_replace before after e e' hj
  · rintro rfl
    exact ⟨names_edit (by decide) h, slots_edit_range h⟩

/-- A text that does not parse as a number is typed for a part of a point that has a marker, and
that came into the first slot by a removal. -/
theorem run_edit_touches_field_unreadable :
    let ops : List (Operation Float) :=
      [.addSlider "a" .initial, .addPoint "b" ⟨1.5, -1.5⟩, .remove ⟨0⟩, .addSlider "c" .initial,
        .placeMarkers (.atOrigin 3) (some ⟨100, 100⟩)]
    let r : Registry Float := empty.run ops
    ((empty : Registry Float).issued ops).length < UInt32.size ∧
      ∃ r' e', r.edit ⟨1⟩ .im "i" = .ok (.value, r') ∧ r'.entries[0]? = some e' ∧
        e'.cell? .im = some (.number 0) ∧ e'.cell? .re = some (.number 1.5) ∧
        e'.text? .im = some "i" ∧ e'.text? .re = some "1.5" ∧ e'.marker? = some (some ⟨75, 75⟩) ∧
        r'.names = ["b", "c"] ∧ r'.slots[1]? = some ⟨0, 0⟩ := by
  intro ops r
  have hadds : ((empty : Registry Float).issued ops).length < UInt32.size := by decide +kernel
  let e : Entry Float := ⟨⟨1⟩, "b", .point ⟨1.5, -1.5⟩ ⟨"1.5", "-1.5", some ⟨75, 75⟩⟩⟩
  have hentries : r.entries = [e, ⟨⟨2⟩, "c", .slider .initial⟩] := by decide +kernel
  have hindex : r.indexOf? ⟨1⟩ = some 0 := by rw [indexOf?, hentries]; rfl
  have hzero : (Field.im.typed "i" : Cell Float) = .number 0 := by decide +kernel
  obtain ⟨hedit, haccepted⟩ := run_edit_touches_field ops hadds ⟨1⟩ .im "i"
  obtain ⟨⟨k, r'⟩, hr'⟩ := haccepted.mpr ⟨e, by rw [hentries]; exact List.mem_cons_self, rfl, rfl⟩
  obtain ⟨before, d, e', after, hsplit, rfl, -, -, hplace, htyped, rfl, -, hvalue, -⟩ :=
    hedit k r' hr'
  obtain rfl : before = [] :=
    List.eq_nil_of_length_eq_zero (Option.some.inj (hplace.symm.trans hindex))
  obtain ⟨rfl, -⟩ : d = e ∧ _ := List.cons.inj (hsplit.symm.trans hentries)
  obtain ⟨hnames, hslots⟩ := hvalue rfl
  refine ⟨hadds, _, e', hr', rfl, htyped.cell.trans (congrArg some hzero),
    htyped.other_cell .re (by decide), htyped.text .im rfl, htyped.other_text .re (by decide),
    htyped.marker, ?_, ?_⟩
  · rw [hnames, names, hentries]
    rfl
  · rw [hslots 1 (by decide), slots, hentries]
    decide +kernel

end Registry

end PlotPane
