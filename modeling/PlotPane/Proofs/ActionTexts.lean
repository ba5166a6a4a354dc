import PlotPane.Proofs.Finiteness
import PlotPane.Proofs.JsonTexts
import PlotPane.Wire.Action

/-!
# Actions are read back

A page gets the actions of an event as one JSON text. Here is how it reads them: the type of an
object says which action it is, and its other members are found by their names. For actions with
finite numbers nothing is lost on the way, so that lists of actions that differ have different
texts.
-/

namespace PlotPane

namespace Json

/-- The value of the member with a given name, of which there has to be exactly one. -/
def field? (name : String) : Json → Option Json
  | .obj members => if countKey name members = 1 then member? name members else none
  | _ => none

def get? {β : Type} (j : Json) (name : String) (read : Json → Option β) : Option β :=
  (j.field? name).bind read

def text? : Json → Option String
  | .str s => s
  | _ => none

end Json

variable {α : Type} [Scalar α]

/-! How the page reads -/

def VariableId.ofJson? (j : Json) : Option VariableId :=
  j.word?.map VariableId.mk

def Value.ofJson? (j : Json) : Option (Value α) := do
  match ← j.get? "kind" Json.text? with
  | "slider" =>
    return .slider {
      value := ← j.get? "value" Json.number?
      min := ← j.get? "min" Json.number?
      max := ← j.get? "max" Json.number?
      step := ← j.get? "step" Json.number? }
  | "point" => return .point ⟨← j.get? "re" Json.number?, ← j.get? "im" Json.number?⟩
  | _ => none

def Variable.ofJson? (j : Json) : Option (Variable α) :=
  return {
    id := ← j.get? "id" VariableId.ofJson?
    name := ← j.get? "name" Json.text?
    value := ← j.get? "value" Value.ofJson? }

def Action.ofJson? (j : Json) : Option (Action α) := do
  match ← j.get? "type" Json.text? with
  | "cursor_label" => return .cursorLabel (← j.get? "text" Json.text?)
  | "marker_moved" =>
    return .markerMoved (← j.get? "id" VariableId.ofJson?)
      ⟨← j.get? "x" Json.number?, ← j.get? "y" Json.number?⟩
  | "point_fields_changed" =>
    return .pointFields (← j.get? "id" VariableId.ofJson?) (← j.get? "re" Json.text?)
      (← j.get? "im" Json.text?)
  | "slider_changed" =>
    return .sliderChanged (← j.get? "id" VariableId.ofJson?) (← j.get? "value" Json.number?)
      (← j.get? "position" Json.number?)
  | "variable_added" => return .added (← j.get? "variable" Variable.ofJson?)
  | "variable_removed" => return .removed (← j.get? "id" VariableId.ofJson?)
  | "compile_succeeded" => return .compiled
  | "compile_failed" => return .compileFailed (← j.get? "message" Json.text?)
  | "copy_to_clipboard" => return .copy (← j.get? "text" Json.text?)
  | "theme_changed" => return .themeChanged (← j.get? "theme" Theme.ofJson?)
  | _ => none

/-- All numbers in an action are finite. -/
def Action.IsFinite : Action α → Prop
  | .markerMoved _ p => Scalar.isFinite p.x = true ∧ Scalar.isFinite p.y = true
  | .sliderChanged _ value position =>
    Scalar.isFinite value = true ∧ Scalar.isFinite position = true
  | .added v => v.value.IsFinite
  | _ => True

/-! Records -/

namespace Json

variable {β : Type} {ms : List (String × Json)} {name : String} {v : Json}

theorem countKey_record :
    countKey name (ms.map fun m => (some m.1, m.2)) = (ms.map Prod.fst).count name := by
  rw [countKey, List.countP_map, List.count, List.countP_map]
  rfl

theorem member?_record (hnodup : (ms.map Prod.fst).Nodup) (h : (name, v) ∈ ms) :
    member? name (ms.map fun m => (some m.1, m.2)) = some v := by
  induction ms with
  | nil => exact absurd h List.not_mem_nil
  | cons m ms ih =>
    obtain ⟨hfresh, hrest⟩ := List.nodup_cons.mp hnodup
    rcases List.mem_cons.mp h with rfl | h
    · simp [member?]
    · have hne : m.1 ≠ name := by
        rintro rfl
        exact hfresh (List.mem_map.mpr ⟨_, h, rfl⟩)
      have hskip := ih hrest h
      simpa [member?, hne] using hskip

/-- In a record with distinct names every member is found by its name. -/
theorem field?_record (hnodup : (ms.map Prod.fst).Nodup) (h : (name, v) ∈ ms) :
    (record ms).field? name = some v := by
  have hcount : countKey name (ms.map fun m => (some m.1, m.2)) = 1 := by
    rw [countKey_record]
    exact List.count_eq_one_of_mem hnodup (List.mem_map.mpr ⟨_, h, rfl⟩)
  rw [record, field?, if_pos hcount, member?_record hnodup h]

theorem get?_record (hnodup : (ms.map Prod.fst).Nodup) (h : (name, v) ∈ ms)
    {read : Json → Option β} {x : β} (hread : read v = some x) :
    (record ms).get? name read = some x := by
  rw [get?, field?_record hnodup h, Option.bind_some, hread]

theorem text?_text (s : String) : text? (text s) = some s := rfl

theorem proper_record (h : ∀ m ∈ ms, m.2.Proper) : (record ms).Proper := by
  refine .obj fun m hm => ?_
  obtain ⟨n, hn, rfl⟩ := List.mem_map.mp hm
  exact h n hn

end Json

/-! Reading back -/

theorem VariableId.ofJson?_toJson (id : VariableId) : ofJson? id.toJson = some id := by
  rw [ofJson?, toJson, Json.word?_ofNat id.index.toNat_lt, UInt32.ofNat_toNat]
  rfl

theorem Theme.ofJson?_toJson (t : Theme) : ofJson? t.toJson = some t := by
  cases t <;> rfl

theorem Value.ofJson?_toJson {v : Value Float} (h : v.IsFinite) : ofJson? v.toJson = some v := by
  cases v with
  | slider s =>
    have hs : s.IsFinite := h
    have hkind : (slider s).toJson.get? "kind" Json.text? = some "slider" :=
      Json.get?_record (by simp) (by simp) (Json.text?_text _)
    have hvalue : (slider s).toJson.get? "value" Json.number? = some s.value :=
      Json.get?_record (by simp) (by simp) (Json.number?_ofScalar hs.value)
    have hmin : (slider s).toJson.get? "min" Json.number? = some s.min :=
      Json.get?_record (by simp) (by simp) (Json.number?_ofScalar hs.min)
    have hmax : (slider s).toJson.get? "max" Json.number? = some s.max :=
      Json.get?_record (by simp) (by simp) (Json.number?_ofScalar hs.max)
    have hstep : (slider s).toJson.get? "step" Json.number? = some s.step :=
      Json.get?_record (by simp) (by simp) (Json.number?_ofScalar hs.step)
    simp [ofJson?, hkind, hvalue, hmin, hmax, hstep]
  | point z =>
    have hz : z.IsFinite := h
    have hkind : (point z).toJson.get? "kind" Json.text? = some "point" :=
      Json.get?_record (by simp) (by simp) (Json.text?_text _)
    have hre : (point z).toJson.get? "re" Json.number? = some z.re :=
      Json.get?_record (by simp) (by simp) (Json.number?_ofScalar hz.re)
    have him : (point z).toJson.get? "im" Json.number? = some z.im :=
      Json.get?_record (by simp) (by simp) (Json.number?_ofScalar hz.im)
    simp [ofJson?, hkind, hre, him]

theorem Variable.ofJson?_toJson {v : Variable Float} (h : v.value.IsFinite) :
    ofJson? v.toJson = some v := by
  have hid : v.toJson.get? "id" VariableId.ofJson? = some v.id :=
    Json.get?_record (by simp) (by simp) v.id.ofJson?_toJson
  have hname : v.toJson.get? "name" Json.text? = some v.name :=
    Json.get?_record (by simp) (by simp) (Json.text?_text _)
  have hvalue : v.toJson.get? "value" Value.ofJson? = some v.value :=
    Json.get?_record (by simp) (by simp) (Value.ofJson?_toJson h)
  simp [ofJson?, hid, hname, hvalue]

namespace Action

theorem nodup_names (a : Action α) :
    ((("type", Json.text a.typeName) :: a.fields).map Prod.fst).Nodup := by
  cases a <;> simp [fields]

theorem get?_type (a : Action α) : a.toJson.get? "type" Json.text? = some a.typeName :=
  Json.get?_record a.nodup_names List.mem_cons_self rfl

theorem get?_field (a : Action α) {β : Type} {name : String} {v : Json}
    {read : Json → Option β} {x : β} (h : (name, v) ∈ a.fields) (hread : read v = some x) :
    a.toJson.get? name read = some x :=
  Json.get?_record a.nodup_names (List.mem_cons_of_mem _ h) hread

/-- The page recovers an action from its object. -/
theorem ofJson?_toJson {a : Action Float} (h : a.IsFinite) : ofJson? a.toJson = some a := by
  have htype := a.get?_type
  -- Three kinds of members make up most objects: texts, identifiers and numbers.
  have htext (name s : String) (hm : (name, Json.text s) ∈ a.fields) :
      a.toJson.get? name Json.text? = some s :=
    a.get?_field hm rfl
  have hid (id : VariableId) (hm : ("id", id.toJson) ∈ a.fields) :
      a.toJson.get? "id" VariableId.ofJson? = some id :=
    a.get?_field hm id.ofJson?_toJson
  have hnumber (name : String) {x : Float} (hx : Scalar.isFinite x = true)
      (hm : (name, Json.ofScalar x) ∈ a.fields) : a.toJson.get? name Json.number? = some x :=
    a.get?_field hm (Json.number?_ofScalar hx)
  rw [ofJson?, htype]
  cases a with
  | cursorLabel text =>
    have htext := htext "text" text (by simp [fields])
    simp [typeName, htext]
  | markerMoved id p =>
    have hid := hid id (by simp [fields])
    have hx := hnumber "x" h.1 (by simp [fields])
    have hy := hnumber "y" h.2 (by simp [fields])
    simp [typeName, hid, hx, hy]
  | pointFields id re im =>
    have hid := hid id (by simp [fields])
    have hre := htext "re" re (by simp [fields])
    have him := htext "im" im (by simp [fields])
    simp [typeName, hid, hre, him]
  | sliderChanged id value position =>
    have hid := hid id (by simp [fields])
    have hvalue := hnumber "value" h.1 (by simp [fields])
    have hposition := hnumber "position" h.2 (by simp [fields])
    simp [typeName, hid, hvalue, hposition]
  | added v =>
    have hvariable : (added v).toJson.get? "variable" Variable.ofJson? = some v :=
      get?_field _ (by simp [fields]) (Variable.ofJson?_toJson h)
    simp [typeName, hvariable]
  | removed id =>
    have hid := hid id (by simp [fields])
    simp [typeName, hid]
  | compiled => simp [typeName]
  | compileFailed message =>
    have hmessage := htext "message" message (by simp [fields])
    simp [typeName, hmessage]
  | copy text =>
    have htext := htext "text" text (by simp [fields])
    simp [typeName, htext]
  | themeChanged theme =>
    have htheme : (themeChanged theme : Action Float).toJson.get? "theme" Theme.ofJson? =
        some theme :=
      get?_field _ (by simp [fields]) theme.ofJson?_toJson
    simp [typeName, htheme]

theorem map_ofJson?_toJson {as : List (Action Float)} (h : ∀ a ∈ as, a.IsFinite) :
    (as.map toJson).map ofJson? = as.map some := by
  rw [List.map_map]
  exact List.map_congr_left fun a ha => ofJson?_toJson (h a ha)

end Action

/-! Texts -/

theorem Value.proper_toJson {v : Value Float} (h : v.IsFinite) : v.toJson.Proper := by
  cases v with
  | slider s =>
    have hs : s.IsFinite := h
    apply Json.proper_record
    simp only [List.forall_mem_cons]
    exact ⟨.str _, Json.proper_ofScalar hs.value, Json.proper_ofScalar hs.min,
      Json.proper_ofScalar hs.max, Json.proper_ofScalar hs.step, List.forall_mem_nil _⟩
  | point z =>
    have hz : z.IsFinite := h
    apply Json.proper_record
    simp only [List.forall_mem_cons]
    exact ⟨.str _, Json.proper_ofScalar hz.re, Json.proper_ofScalar hz.im, List.forall_mem_nil _⟩

theorem Variable.proper_toJson {v : Variable Float} (h : v.value.IsFinite) : v.toJson.Proper := by
  apply Json.proper_record
  simp only [List.forall_mem_cons]
  exact ⟨Json.proper_ofNat _, .str _, Value.proper_toJson h, List.forall_mem_nil _⟩

namespace Action

theorem proper_fields {a : Action Float} (h : a.IsFinite) : ∀ m ∈ a.fields, m.2.Proper := by
  cases a <;> simp only [fields, List.forall_mem_cons]
  case cursorLabel | compileFailed | copy | themeChanged => exact ⟨.str _, List.forall_mem_nil _⟩
  case markerMoved | sliderChanged =>
    exact ⟨Json.proper_ofNat _, Json.proper_ofScalar h.1, Json.proper_ofScalar h.2,
      List.forall_mem_nil _⟩
  case pointFields => exact ⟨Json.proper_ofNat _, .str _, .str _, List.forall_mem_nil _⟩
  case added => exact ⟨Variable.proper_toJson h, List.forall_mem_nil _⟩
  case removed => exact ⟨Json.proper_ofNat _, List.forall_mem_nil _⟩
  case compiled => exact List.forall_mem_nil _

theorem denotes_listText {as : List (Action Float)} (h : ∀ a ∈ as, a.IsFinite) :
    Json.Denotes (listText as) (.arr (as.map toJson)) := by
  apply Json.Proper.denotes
  refine .arr fun v hv => ?_
  obtain ⟨a, ha, rfl⟩ := List.mem_map.mp hv
  exact Json.proper_record (List.forall_mem_cons.mpr ⟨.str _, proper_fields (h a ha)⟩)

/-- The text of a list of actions is grammatical, and there is only one value that it denotes: an
array with one object for each action. From these objects the page recovers the actions in their
order, and no other list has the same text. -/
theorem listText_lossless (as : List (Action Float)) (h : ∀ a ∈ as, a.IsFinite) :
    (∃ objects : List Json, Json.Denotes (listText as) (.arr objects) ∧
      (∀ v, Json.Denotes (listText as) v → v = .arr objects) ∧
      (∀ o ∈ objects, ∃ members, o = .obj members) ∧
      objects.map ofJson? = as.map some) ∧
    ∀ bs : List (Action Float), (∀ b ∈ bs, b.IsFinite) → listText bs = listText as → bs = as := by
  have hdenotes := denotes_listText h
  constructor
  · refine ⟨as.map toJson, hdenotes, fun v hv => hv.unique hdenotes, ?_, map_ofJson?_toJson h⟩
    intro o ho
    obtain ⟨a, -, rfl⟩ := List.mem_map.mp ho
    exact ⟨_, rfl⟩
  · intro bs hbs htext
    have hsame : Json.arr (bs.map toJson) = .arr (as.map toJson) := by
      apply Json.Denotes.unique (denotes_listText hbs)
      rw [htext]
      exact hdenotes
    have hread : bs.map some = as.map some := by
      rw [← map_ofJson?_toJson hbs, ← map_ofJson?_toJson h, Json.arr.inj hsame]
    exact List.map_injective_iff.mpr (Option.some_injective _) hread

/-- A clipboard text that imitates the end of its object and a whole action after it, the numbers at
the ends of their ranges, and a negative zero. -/
theorem listText_lossless_imitated :
    let as : List (Action Float) :=
      [.copy r#""},{"type":"compile_succeeded\"#, .compileFailed "\x00\n\\u0022 𝔸 😀",
        .added ⟨⟨4294967295⟩, "z\"", .slider ⟨-0.0, 5e-324, 1.7976931348623157e308, 1e-7⟩⟩,
        .added ⟨⟨0⟩, "", .point ⟨0.1, -1e21⟩⟩, .pointFields ⟨7⟩ "-0" "\t", .removed ⟨7⟩,
        .markerMoved ⟨7⟩ ⟨0.5, 3.0⟩, .sliderChanged ⟨1⟩ 2.5 (-1e16), .cursorLabel "\u2028",
        .compiled, .themeChanged .dark]
    (∀ a ∈ as, a.IsFinite) ∧
    (∃ objects : List Json, Json.Denotes (listText as) (.arr objects) ∧
      (∀ v, Json.Denotes (listText as) v → v = .arr objects) ∧
      (∀ o ∈ objects, ∃ members, o = .obj members) ∧
      objects.map ofJson? = as.map some) ∧
    ∀ bs : List (Action Float), (∀ b ∈ bs, b.IsFinite) → listText bs = listText as → bs = as := by
  intro as
  have hfinite : ∀ a ∈ as, a.IsFinite := by
    simp only [as, List.forall_mem_cons]
    exact ⟨trivial, trivial, ⟨by decide +kernel, by decide +kernel, by decide +kernel,
      by decide +kernel⟩, ⟨by decide +kernel, by decide +kernel⟩, trivial, trivial,
      ⟨by decide +kernel, by decide +kernel⟩, ⟨by decide +kernel, by decide +kernel⟩, trivial,
      trivial, trivial, List.forall_mem_nil _⟩
  clear_value as
  exact ⟨hfinite, listText_lossless as hfinite⟩

end Action

end PlotPane
