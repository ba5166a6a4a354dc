import PlotPane.Json.Record
import Mathlib.Data.List.Nodup
import Mathlib.Data.List.Perm.Basic

/-!
# Ways to write a record

A record can be written with its members in any order, with members among them that are none of its
fields, and with its first fields as an array. The row of its fields is the same every time. An
object has a row if all of its keys are texts and no field is repeated, and neither depends on the
order; a field that is not repeated is found wherever it stands. A key with a lone surrogate is not
a text, though no field has it either, and so an object with such a key has no row.
-/

namespace PlotPane.Json

variable {names : List String} {name key : String} {v : Json}
  {ms ms' : List (Option String × Json)}

/-- The first fields of a record by their names. -/
def membersOf (names : List String) (items : List Json) : List (Option String × Json) :=
  names.zipWith (fun name v => (some name, v)) items

/-- One change in the way a record with given fields is written. A key that is added is a text. -/
inductive Respelled (names : List String) : Json → Json → Prop
  | reordered {ms ms' : List (Option String × Json)} (h : ms.Perm ms') :
      Respelled names (.obj ms) (.obj ms')
  | extended {key : String} (hkey : key ∉ names) (v : Json)
      (before after : List (Option String × Json)) :
      Respelled names (.obj (before ++ after)) (.obj (before ++ (some key, v) :: after))
  | named {items : List Json} (h : items.length ≤ names.length) :
      Respelled names (.arr items) (.obj (membersOf names items))

/-- An object with a key that stands for no text, since its literal holds a lone surrogate. -/
inductive LoneKeyed : Json → Prop
  | inserted (v : Json) (before after : List (Option String × Json)) :
      LoneKeyed (.obj (before ++ (none, v) :: after))

/-- The objects that have a row. -/
structure Keyed (names : List String) (ms : List (Option String × Json)) : Prop where
  texts : ∀ m ∈ ms, m.1.isSome = true
  once : ∀ name ∈ names, countKey name ms ≤ 1

theorem row?_obj_of_keyed (h : Keyed names ms) :
    row? names (.obj ms) = some (names.map fun name => member? name ms) := by
  have htexts : ms.all (fun m => m.1.isSome) = true := List.all_eq_true.mpr h.texts
  have honce : names.all (fun name => decide (countKey name ms ≤ 1)) = true :=
    List.all_eq_true.mpr fun name hname => decide_eq_true (h.once name hname)
  rw [row?, htexts, honce]
  rfl

theorem row?_obj_of_not_keyed (h : ¬Keyed names ms) : row? names (.obj ms) = none := by
  rw [row?, if_neg]
  intro hall
  obtain ⟨htexts, honce⟩ := Bool.and_eq_true_iff.mp hall
  refine h ⟨List.all_eq_true.mp htexts, ?_⟩
  intro name hname
  exact of_decide_eq_true (List.all_eq_true.mp honce name hname)

theorem LoneKeyed.row?_eq_none {j : Json} (h : LoneKeyed j) (names : List String) :
    row? names j = none := by
  cases h with
  | inserted v before after =>
    apply row?_obj_of_not_keyed
    intro hkeyed
    have htext : (none : Option String).isSome = true :=
      hkeyed.texts (none, v) (List.mem_append_right _ List.mem_cons_self)
    cases htext

theorem row?_congr (hkeyed : Keyed names ms ↔ Keyed names ms')
    (hmember : Keyed names ms → ∀ name ∈ names, member? name ms = member? name ms') :
    row? names (.obj ms) = row? names (.obj ms') := by
  by_cases h : Keyed names ms
  · rw [row?_obj_of_keyed h, row?_obj_of_keyed (hkeyed.mp h), List.map_congr_left (hmember h)]
  · rw [row?_obj_of_not_keyed h, row?_obj_of_not_keyed (mt hkeyed.mpr h)]

/-! Another order -/

theorem Keyed.perm (h : Keyed names ms) (hperm : ms.Perm ms') : Keyed names ms' where
  texts m hm := h.texts m (hperm.mem_iff.mpr hm)
  once name hname := by
    rw [countKey, ← hperm.countP_eq]
    exact h.once name hname

theorem member?_perm (hperm : ms.Perm ms') (honce : countKey name ms ≤ 1) :
    member? name ms = member? name ms' := by
  have hfilter := hperm.filter fun m => m.1 == some name
  rw [countKey, List.countP_eq_length_filter] at honce
  rw [member?, member?, ← List.head?_filter, ← List.head?_filter]
  -- Lists of at most one member have no other order.
  rcases Nat.le_one_iff_eq_zero_or_eq_one.mp honce with hnone | hone
  · rw [List.length_eq_zero_iff.mp hnone] at hfilter ⊢
    rw [List.nil_perm.mp hfilter]
  · obtain ⟨m, hfound⟩ := List.length_eq_one_iff.mp hone
    rw [hfound] at hfilter ⊢
    rw [List.singleton_perm.mp hfilter]

theorem row?_perm (hperm : ms.Perm ms') : row? names (.obj ms) = row? names (.obj ms') := by
  apply row?_congr
  · exact ⟨fun h => h.perm hperm, fun h => h.perm hperm.symm⟩
  · intro h name hname
    exact member?_perm hperm (h.once name hname)

/-! One member more, in front: by its order it may stand anywhere -/

theorem countKey_cons :
    countKey name ((some key, v) :: ms) = countKey name ms + if key = name then 1 else 0 := by
  simp only [countKey, List.countP_cons, beq_iff_eq, Option.some.injEq]

theorem member?_cons_self : member? key ((some key, v) :: ms) = some v := by
  simp only [member?, List.find?_cons, BEq.rfl, Option.map_some]

theorem member?_cons_of_ne (hne : key ≠ name) :
    member? name ((some key, v) :: ms) = member? name ms := by
  have hskip : (some key == some name) = false := by simpa using hne
  simp only [member?, List.find?_cons, hskip]

theorem keyed_cons_iff :
    Keyed names ((some key, v) :: ms) ↔ Keyed names ms ∧ (key ∈ names → countKey key ms = 0) := by
  constructor
  · intro h
    refine ⟨⟨fun m hm => h.texts m (List.mem_cons_of_mem _ hm), ?_⟩, ?_⟩
    · intro name hname
      have hcount := h.once name hname
      rw [countKey_cons] at hcount
      omega
    · intro hkey
      have hcount := h.once key hkey
      rw [countKey_cons, if_pos rfl] at hcount
      omega
  · rintro ⟨h, hfresh⟩
    refine ⟨List.forall_mem_cons.mpr ⟨rfl, h.texts⟩, ?_⟩
    intro name hname
    rw [countKey_cons]
    split_ifs with hkey
    · have hcount := hfresh (hkey ▸ hname)
      rw [hkey] at hcount
      omega
    · exact h.once name hname

theorem row?_cons_of_not_mem (hkey : key ∉ names) :
    row? names (.obj ((some key, v) :: ms)) = row? names (.obj ms) := by
  apply row?_congr
  · rw [keyed_cons_iff, and_iff_left fun h => absurd h hkey]
  · intro _ name hname
    apply member?_cons_of_ne
    rintro rfl
    exact hkey hname

/-! An array of the first fields -/

theorem countKey_membersOf_le (names : List String) (items : List Json) :
    countKey name (membersOf names items) ≤ names.count name := by
  induction names generalizing items with
  | nil => exact Nat.zero_le _
  | cons n names ih =>
    cases items with
    | nil => exact Nat.zero_le _
    | cons v items =>
      have hrest := ih items
      rw [membersOf, List.zipWith_cons_cons, countKey_cons, List.count_cons]
      simp only [beq_iff_eq]
      exact Nat.add_le_add_right hrest _

theorem keyed_membersOf (hnodup : names.Nodup) (items : List Json) :
    Keyed names (membersOf names items) where
  texts m hm := by
    obtain ⟨i, hi, rfl⟩ := List.mem_iff_getElem.mp hm
    simp only [membersOf, List.getElem_zipWith, Option.isSome_some]
  once name _ :=
    Nat.le_trans (countKey_membersOf_le names items) (List.nodup_iff_count_le_one.mp hnodup name)

theorem map_member?_membersOf (hnodup : names.Nodup) (items : List Json)
    (h : items.length ≤ names.length) :
    names.map (fun name => member? name (membersOf names items)) =
      items.map some ++ List.replicate (names.length - items.length) none := by
  induction names generalizing items with
  | nil => rw [List.length_eq_zero_iff.mp (Nat.le_zero.mp h)]; rfl
  | cons n names ih =>
    obtain ⟨hfresh, hrest⟩ := List.nodup_cons.mp hnodup
    cases items with
    | nil => exact List.map_const' ..
    | cons v items =>
      have hskip (name : String) (hname : name ∈ names) :
          member? name ((some n, v) :: membersOf names items) =
            member? name (membersOf names items) := by
        apply member?_cons_of_ne
        rintro rfl
        exact hfresh hname
      have hitems := ih hrest items (Nat.le_of_succ_le_succ h)
      rw [← List.map_congr_left hskip] at hitems
      rw [List.map_cons, List.map_cons, List.cons_append, List.length_cons, List.length_cons,
        Nat.add_sub_add_right, ← hitems]
      exact congrArg (· :: _) member?_cons_self

theorem row?_arr (hnodup : names.Nodup) {items : List Json} (h : items.length ≤ names.length) :
    row? names (.arr items) = row? names (.obj (membersOf names items)) := by
  rw [row?_obj_of_keyed (keyed_membersOf hnodup items), map_member?_membersOf hnodup items h]
  exact if_pos h

/-- However a record is written, it has the same row. -/
theorem Respelled.row?_eq (hnodup : names.Nodup) {j j' : Json} (h : Respelled names j j') :
    row? names j = row? names j' := by
  cases h with
  | reordered hperm => exact row?_perm hperm
  | extended hkey v before after => rw [row?_perm List.perm_middle, row?_cons_of_not_mem hkey]
  | named hlength => exact row?_arr hnodup hlength

end PlotPane.Json
