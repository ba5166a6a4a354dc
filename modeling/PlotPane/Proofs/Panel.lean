import PlotPane.Proofs.Markers

/-!
# The page beside a session

A page keeps what it shows of a session, and knows the session only from the actions that it is told
to carry out. This is that page: a row for each variable, the message of the last compilation if it
failed, and the theme. Where identities are distinct, an action that is about one variable reaches
the one row that the variable has.
-/

namespace PlotPane

/-- What a row has beside the name. The texts of the fields of a slider are left out, since a
session does not keep them. -/
inductive Widget (α : Type) where
  | slider (value position : α)
  | point (re im : String) (marker : Option (ScreenPoint α))
  deriving DecidableEq, Repr

structure Row (α : Type) where
  id : VariableId
  name : String
  widget : Widget α
  deriving DecidableEq, Repr

structure Panel (α : Type) where
  rows : List (Row α)
  message : Option String
  theme : Theme
  deriving DecidableEq, Repr

variable {α σ : Type}

namespace Widget

def moveMarker (position : ScreenPoint α) : Widget α → Widget α
  | .point re im _ => .point re im (some position)
  | w => w

def setTexts (re im : String) : Widget α → Widget α
  | .point _ _ marker => .point re im marker
  | w => w

def setSlider (value position : α) : Widget α → Widget α
  | .slider _ _ => .slider value position
  | w => w

def setField (field : Field) (text : String) : Widget α → Widget α
  | .point re im marker =>
    match field with
    | .re => .point text im marker
    | .im => .point re text marker
    | _ => .point re im marker
  | w => w

def ofContent [Scalar α] : Content α → Widget α
  | .slider s => .slider s.value s.position
  | .point _ h => .point h.reText h.imText h.marker

/-- A new widget has the texts of the numbers, and its marker has not been put anywhere. -/
def ofValue [Scalar α] : Value α → Widget α
  | .slider s => .slider s.value s.position
  | .point z => .point (Scalar.fieldText z.re) (Scalar.fieldText z.im) none

end Widget

namespace Action

def isLocal : Action α → Bool
  | .added _ | .removed _ | .compiled | .compileFailed _ | .themeChanged _ => false
  | _ => true

/-- The action changes at most what the row of one variable shows. -/
def Concerns (id : VariableId) (a : Action α) : Prop :=
  a.isLocal = true ∧ a.subject? = some id

end Action

namespace Row

def hear (row : Row α) : Action α → Row α
  | .markerMoved id position =>
    if row.id = id then { row with widget := row.widget.moveMarker position } else row
  | .pointFields id re im =>
    if row.id = id then { row with widget := row.widget.setTexts re im } else row
  | .sliderChanged id value position =>
    if row.id = id then { row with widget := row.widget.setSlider value position } else row
  | _ => row

def hearAll (as : List (Action α)) (row : Row α) : Row α :=
  as.foldl hear row

def setField (field : Field) (text : String) (row : Row α) : Row α :=
  match field with
  | .name => { row with name := text }
  | field => { row with widget := row.widget.setField field text }

def ofEntry [Scalar α] (e : Entry α) : Row α :=
  ⟨e.id, e.name, .ofContent e.content⟩

def ofVariable [Scalar α] (v : Variable α) : Row α :=
  ⟨v.id, v.name, .ofValue v.value⟩

@[simp] theorem id_ofEntry [Scalar α] (e : Entry α) : (ofEntry e).id = e.id := rfl

theorem hear_of_ne {row : Row α} {a : Action α} (h : a.subject? ≠ some row.id) :
    row.hear a = row := by
  cases a with
  | markerMoved id position => exact if_neg fun heq => h (congrArg some heq.symm)
  | pointFields id re im => exact if_neg fun heq => h (congrArg some heq.symm)
  | sliderChanged id value position => exact if_neg fun heq => h (congrArg some heq.symm)
  | _ => rfl

theorem hearAll_of_ne {row : Row α} {as : List (Action α)}
    (h : ∀ a ∈ as, a.subject? ≠ some row.id) : row.hearAll as = row := by
  induction as with
  | nil => rfl
  | cons a as ih =>
      have ha : row.hear a = row := hear_of_ne (h a List.mem_cons_self)
      have has : row.hearAll as = row := ih fun b hb => h b (List.mem_cons_of_mem a hb)
      rw [hearAll, List.foldl_cons, ha]
      exact has

theorem hearAll_append (as bs : List (Action α)) (row : Row α) :
    row.hearAll (as ++ bs) = (row.hearAll as).hearAll bs :=
  List.foldl_append

end Row

namespace Panel

variable [Scalar α]

def apply (p : Panel α) : Action α → Panel α
  | .added v => { p with rows := p.rows ++ [.ofVariable v] }
  | .removed id => { p with rows := p.rows.filter fun row => row.id != id }
  | .compiled => { p with message := none }
  | .compileFailed message => { p with message := some message }
  | .themeChanged theme => { p with theme := theme }
  | a => { p with rows := p.rows.map fun row => row.hear a }

def applyAll (p : Panel α) (as : List (Action α)) : Panel α :=
  as.foldl apply p

/-- The text that the user types stands in its field. -/
def typed (p : Panel α) : Event α → Panel α
  | .editVariable id field text =>
    { p with rows := p.rows.map fun row =>
        if row.id = id then row.setField field text else row }
  | _ => p

/-- The page after an event, with the reply to it. A text that is refused is taken back. -/
def hear (p : Panel α) (e : Event α) : Reply α → Panel α
  | .actions as => (p.typed e).applyAll as
  | _ => p

theorem applyAll_append (p : Panel α) (as bs : List (Action α)) :
    p.applyAll (as ++ bs) = (p.applyAll as).applyAll bs :=
  List.foldl_append

theorem apply_of_isLocal {p : Panel α} {a : Action α} (h : a.isLocal = true) :
    p.apply a = { p with rows := p.rows.map fun row => row.hear a } := by
  cases a with
  | added v => cases h
  | removed id => cases h
  | compiled => cases h
  | compileFailed message => cases h
  | themeChanged theme => cases h
  | _ => rfl

theorem applyAll_of_isLocal {p : Panel α} {as : List (Action α)}
    (h : ∀ a ∈ as, a.isLocal = true) :
    p.applyAll as = { p with rows := p.rows.map (Row.hearAll as) } := by
  induction as generalizing p with
  | nil =>
      have hsame : p.rows.map (Row.hearAll []) = p.rows := List.map_id p.rows
      rw [hsame]
      rfl
  | cons a as ih =>
      have ha := apply_of_isLocal (p := p) (h a List.mem_cons_self)
      have has := ih (p := p.apply a) fun b hb => h b (List.mem_cons_of_mem a hb)
      rw [applyAll, List.foldl_cons]
      change (p.apply a).applyAll as = _
      rw [has, ha, List.map_map]
      rfl

end Panel

namespace Registry

variable [Scalar α]

def rows (r : Registry α) : List (Row α) :=
  r.entries.map .ofEntry

variable {r r' : Registry α} {id : VariableId}

theorem Reports.mem_ids {a : Action α} (h : r.Reports a) (hid : a.subject? = some id) :
    id ∈ r.ids := by
  obtain ⟨e, he, ha⟩ := h (hid ▸ Option.some_ne_none id)
  rw [Entry.subject_of_mem_reports ha] at hid
  exact Option.some.inj hid ▸ List.mem_map_of_mem he

theorem map_hearAll_rows_of_ne {as : List (Action α)}
    (h : ∀ a ∈ as, ∀ id ∈ r.ids, a.subject? ≠ some id) : r.rows.map (Row.hearAll as) = r.rows := by
  rw [rows, List.map_map]
  refine List.map_congr_left fun e he => Row.hearAll_of_ne ?_
  intro a ha
  exact h a ha e.id (List.mem_map_of_mem he)

/-- A change of the one row that a variable has is a change of its entry. -/
theorem Ordered.map_rows (hr : r.Ordered) {e e' : Entry α} (h : r.Replaced id e e' r')
    {g : Row α → Row α} (hg : g (.ofEntry e) = .ofEntry e')
    (hother : ∀ row, row.id ≠ id → g row = row) : r.rows.map g = r'.rows := by
  rw [rows, rows, h.entries, List.map_map, List.map_map]
  apply List.map_congr_left
  intro x hx
  by_cases hxid : x.id = id
  · have hfind := hr.find?_of_mem hx
    rw [hxid, h.before] at hfind
    obtain rfl := Option.some.inj hfind
    simpa [hxid] using hg
  · simpa [hxid] using hother (.ofEntry x) hxid

end Registry

theorem Turn.concerns_markerActions [Scalar α] {e : Entry α} {a : Action α}
    (h : a ∈ markerActions e) : a.Concerns e.id := by
  obtain ⟨p, -, rfl⟩ := List.mem_map.mp h
  exact ⟨rfl, rfl⟩

theorem Turn.concerns_sliderActions [Scalar α] {e : Entry α} {a : Action α}
    (h : a ∈ sliderActions e) : a.Concerns e.id := by
  obtain ⟨s, -, rfl⟩ := List.mem_map.mp h
  exact ⟨rfl, rfl⟩

namespace Row

variable [Scalar α] {e e' : Entry α}

theorem hearAll_sliderActions (id : VariableId) (name : String) (s s' : Slider α) :
    (ofEntry ⟨id, name, .slider s⟩).hearAll (Turn.sliderActions ⟨id, name, .slider s'⟩) =
      ofEntry ⟨id, name, .slider s'⟩ := by
  simp [Turn.sliderActions, Content.slider?, hearAll, hear, ofEntry, Widget.ofContent,
    Widget.setSlider]

/-- A marker that is nowhere is not told, so the row has to know it already. -/
theorem hearAll_markerActions (id : VariableId) (name : String) (z : PlanePoint α)
    (h : PointHandle α) {marker : Option (ScreenPoint α)}
    (hmarker : h.marker = none → marker = none) :
    (⟨id, name, .point h.reText h.imText marker⟩ : Row α).hearAll
      (Turn.markerActions ⟨id, name, .point z h⟩) = ofEntry ⟨id, name, .point z h⟩ := by
  obtain ⟨re, im, marker'⟩ := h
  cases marker' with
  | none =>
      rw [hmarker rfl]
      rfl
  | some p =>
      simp [Turn.markerActions, Content.handle?, hearAll, hear, ofEntry, Widget.ofContent,
        Widget.moveMarker]

theorem hearAll_markerActions_placeMarker (e : Entry α) (v : View α) (size : ScreenSize α) :
    (ofEntry e).hearAll
        (Turn.markerActions { e with content := e.content.placeMarker v (some size) }) =
      ofEntry { e with content := e.content.placeMarker v (some size) } := by
  obtain ⟨id, name, content⟩ := e
  cases content with
  | slider s => rfl
  | point z h =>
      apply hearAll_markerActions id name z (h.placeMarker z v (some size))
      intro hnone
      cases hnone

section

variable {field : Field} {text : String}

theorem setField_of_renamed (h : e.edit field text = .ok (.name, e')) :
    (ofEntry e).setField field text = ofEntry e' := by
  cases Entry.edited_of_edit h
  rfl

theorem hearAll_setField_of_ranged (h : e.edit field text = .ok (.range, e')) :
    ((ofEntry e).setField field text).hearAll (Turn.sliderActions e') = ofEntry e' := by
  cases Entry.edited_of_edit h <;> exact hearAll_sliderActions _ _ _ _

theorem hearAll_setField_of_revalued {v : View α} {size : Option (ScreenSize α)}
    (h : e.edit field text = .ok (.value, e')) (he : e.content.placeMarker v size = e.content) :
    let e'' := { e' with content := e'.content.placeMarker v size }
    ((ofEntry e).setField field text).hearAll
      (Turn.markerActions e'' ++ Turn.sliderActions e'') = ofEntry e'' := by
  have hmarker (z z' : PlanePoint α) (handle : PointHandle α)
      (hc : e.content = .point z handle) :
      (size.map fun s => v.toScreen s z') = none → handle.marker = none := by
    rw [hc, Content.placeMarker_point_eq_self_iff] at he
    rw [he, Option.map_eq_none_iff, Option.map_eq_none_iff]
    exact fun hnone => hnone
  intro e''
  rw [hearAll_append]
  -- A slider is told its thumb and a point its marker; the other list of actions is empty.
  cases Entry.edited_of_edit h with
  | value id name s => exact hearAll_sliderActions id name s _
  | re id name z handle =>
      exact hearAll_markerActions id name _ ((handle.setText .re text).placeMarker _ v size)
        (hmarker z _ handle rfl)
  | im id name z handle =>
      exact hearAll_markerActions id name _ ((handle.setText .im text).placeMarker _ v size)
        (hmarker z _ handle rfl)

end

theorem hearAll_of_slid {raw x : α} (h : e.slide raw = .ok (x, e')) :
    (ofEntry e).hearAll (Turn.sliderActions e') = ofEntry e' := by
  obtain ⟨id, name, s, rfl, -, rfl⟩ := Entry.slid_of_slide h
  exact hearAll_sliderActions id name s _

theorem hearAll_of_dragged {z : PlanePoint α} {v : View α} {size : ScreenSize α}
    (h : e.setPoint z v (some size) = .ok ((), e')) :
    (ofEntry e).hearAll
      ((e'.content.handle?.toList.map fun h => .pointFields e.id h.reText h.imText) ++
        Turn.markerActions e') = ofEntry e' := by
  obtain ⟨id, name, w, handle, rfl, rfl⟩ := Entry.moved_of_setPoint h
  let moved := handle.sync z.finiteOrZero v (some size)
  have hfields : (ofEntry ⟨id, name, .point w handle⟩).hearAll
      [.pointFields id moved.reText moved.imText] =
      ⟨id, name, .point moved.reText moved.imText handle.marker⟩ := if_pos rfl
  -- The texts come first and leave the marker where it was.
  rw [hearAll_append]
  refine (congrArg _ hfields).trans (hearAll_markerActions id name z.finiteOrZero moved ?_)
  intro hnone
  cases hnone

theorem hearAll_flatMap_markerActions_of_ne {es : List (Entry α)} {row : Row α}
    (h : ∀ e ∈ es, e.id ≠ row.id) : row.hearAll (es.flatMap Turn.markerActions) = row := by
  apply hearAll_of_ne
  intro a ha hsubject
  obtain ⟨e, he, ha⟩ := List.mem_flatMap.mp ha
  have hid := (Turn.concerns_markerActions ha).2.symm.trans hsubject
  exact h e he (Option.some.inj hid)

end Row

namespace Registry

variable [Scalar α] {r r' : Registry α} {id : VariableId}

/-- The markers of all entries, told one after the other, put each row where its point is. -/
theorem Ordered.map_rows_placeMarkers (hr : r.Ordered) (v : View α) (size : ScreenSize α) :
    r.rows.map (Row.hearAll ((r.placeMarkers v (some size)).entries.flatMap Turn.markerActions)) =
      (r.placeMarkers v (some size)).rows := by
  let place (e : Entry α) : Entry α := { e with content := e.content.placeMarker v (some size) }
  change r.rows.map (Row.hearAll ((r.entries.map place).flatMap Turn.markerActions)) =
    (r.entries.map place).map .ofEntry
  rw [rows, List.map_map, List.map_map]
  apply List.map_congr_left
  intro e he
  -- The markers in front of this one and those behind it are not for this row.
  obtain ⟨before, after, hsplit⟩ := List.append_of_mem he
  have hnodup := hr.nodup_ids
  rw [ids, hsplit, List.map_append, List.map_cons, List.nodup_append, List.nodup_cons] at hnodup
  obtain ⟨-, ⟨hafter, -⟩, hbefore⟩ := hnodup
  have hfront : ∀ x ∈ before.map place, x.id ≠ (Row.ofEntry e).id := by
    intro x hx
    obtain ⟨y, hy, rfl⟩ := List.mem_map.mp hx
    exact hbefore _ (List.mem_map_of_mem hy) _ List.mem_cons_self
  have hback : ∀ x ∈ after.map place, x.id ≠ (Row.ofEntry (place e)).id := by
    intro x hx heq
    obtain ⟨y, hy, rfl⟩ := List.mem_map.mp hx
    exact hafter (List.mem_map.mpr ⟨y, hy, heq⟩)
  simp only [Function.comp_apply, hsplit, List.map_append, List.map_cons, List.flatMap_append,
    List.flatMap_cons, Row.hearAll_append]
  rw [Row.hearAll_flatMap_markerActions_of_ne hfront, Row.hearAll_markerActions_placeMarker,
    Row.hearAll_flatMap_markerActions_of_ne hback]

theorem Ordered.filter_rows (hr : r.Ordered) {x : Variable α}
    (h : r.remove id = some (x, r')) :
    r.rows.filter (fun row => row.id != id) = r'.rows := by
  obtain ⟨e, hfind, -, -⟩ := remove_eq_some h
  have hid : id ∈ r.ids := mem_ids_iff.mpr ⟨e, List.mem_of_find?_eq_some hfind, id_of_find? hfind⟩
  obtain ⟨before, e, after, hsplit, heid, hother, hremove⟩ := hr.remove_of_mem hid
  obtain ⟨-, rfl⟩ := Prod.mk.inj (Option.some.inj (hremove.symm.trans h))
  have hkept : ∀ es : List (Entry α), (∀ e ∈ es, e.id ≠ id) →
      (es.map Row.ofEntry).filter (fun row => row.id != id) = es.map .ofEntry := by
    intro es hes
    apply List.filter_eq_self.mpr
    intro row hrow
    obtain ⟨x, hx, rfl⟩ := List.mem_map.mp hrow
    simpa using hes x hx
  have hgone : (Row.ofEntry e :: after.map .ofEntry).filter (fun row => row.id != id) =
      (after.map Row.ofEntry).filter fun row => row.id != id := by
    refine List.filter_cons_of_neg ?_
    simpa using heid
  rw [rows, rows, hsplit, ← hkept (before ++ after) hother, List.map_append, List.map_cons,
    List.filter_append, hgone, ← List.filter_append, ← List.map_append]

end Registry

end PlotPane
