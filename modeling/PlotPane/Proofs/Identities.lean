import PlotPane.Number.Double
import PlotPane.Proofs.Registry

/-!
# Identities of variables

A registry is changed by seven operations, in any order and any number. The identities that it gives
out are the values of its counter, one after the other. So long as the counter has not gone through
all of them, the live identities increase from slot to slot and lie below the counter, and a look-up
by identity means one variable.
-/

namespace PlotPane

variable {α : Type}

def Entry.kind (e : Entry α) : VariableId × Bool :=
  (e.id, e.content.isPoint)

namespace Registry

/-- One request to a registry, with all that it carries. -/
inductive Operation (α : Type) where
  | addSlider (name : String) (s : Slider α)
  | addPoint (name : String) (z : PlanePoint α)
  | remove (id : VariableId)
  | edit (id : VariableId) (field : Field) (text : String)
  | slide (id : VariableId) (raw : α)
  | setPoint (id : VariableId) (z : PlanePoint α) (v : View α) (size : Option (ScreenSize α))
  | placeMarkers (v : View α) (size : Option (ScreenSize α))
  deriving DecidableEq, Repr

/-- The operations that neither add nor remove. -/
def Operation.isInPlace : Operation α → Bool
  | .addSlider _ _ | .addPoint _ _ | .remove _ => false
  | _ => true

def ids (r : Registry α) : List VariableId :=
  r.entries.map Entry.id

/-- The live identities, each with whether it belongs to a point. -/
def kinds (r : Registry α) : List (VariableId × Bool) :=
  r.entries.map Entry.kind

theorem map_fst_kinds (r : Registry α) : r.kinds.map Prod.fst = r.ids := by
  rw [kinds, List.map_map]
  rfl

theorem mem_ids_iff {r : Registry α} {id : VariableId} :
    id ∈ r.ids ↔ ∃ e ∈ r.entries, e.id = id :=
  List.mem_map

theorem find?_eq_none_iff {r : Registry α} {id : VariableId} : r.find? id = none ↔ id ∉ r.ids := by
  rw [find?, List.find?_eq_none, mem_ids_iff]
  simp

/-- Identities increase from slot to slot, and the counter is ahead of all of them. -/
structure Ordered (r : Registry α) : Prop where
  increasing : r.ids.Pairwise fun a b => a.index < b.index
  below : ∀ id ∈ r.ids, id.index < r.nextId

variable {r r' : Registry α} {id : VariableId}

theorem Ordered.index_unique (h : r.Ordered) {i j : Nat} {e e' : Entry α}
    (hi : r.entries[i]? = some e) (hj : r.entries[j]? = some e') (hid : e.id = e'.id) :
    i = j := by
  obtain ⟨hi', rfl⟩ := List.getElem?_eq_some_iff.mp hi
  obtain ⟨hj', rfl⟩ := List.getElem?_eq_some_iff.mp hj
  have hlt : ∀ i j (hi : i < r.entries.length) (hj : j < r.entries.length), i < j →
      r.entries[i].id.index < r.entries[j].id.index := by
    have hincreasing := List.pairwise_map.mp h.increasing
    exact List.pairwise_iff_getElem.mp hincreasing
  rcases Nat.lt_trichotomy i j with hij | hij | hij
  · have hbad := hlt i j hi' hj' hij
    rw [hid] at hbad
    exact absurd hbad (UInt32.lt_irrefl _)
  · exact hij
  · have hbad := hlt j i hj' hi' hij
    rw [hid] at hbad
    exact absurd hbad (UInt32.lt_irrefl _)

theorem Ordered.indexOf?_eq_some_iff (h : r.Ordered) {i : Nat} :
    r.indexOf? id = some i ↔ ∃ e, r.entries[i]? = some e ∧ e.id = id := by
  constructor
  · intro hi
    obtain ⟨hlt, hp, -⟩ := List.findIdx?_eq_some_iff_getElem.mp hi
    exact ⟨r.entries[i], List.getElem?_eq_getElem hlt, by simpa using hp⟩
  · rintro ⟨e, he, rfl⟩
    obtain ⟨hlt, rfl⟩ := List.getElem?_eq_some_iff.mp he
    refine List.findIdx?_eq_some_iff_getElem.mpr ⟨hlt, by simp, ?_⟩
    intro j hj heq
    have hid : r.entries[j].id = r.entries[i].id := by simpa using heq
    have hsame := h.index_unique (List.getElem?_eq_getElem (by omega)) he hid
    omega

theorem Ordered.find?_of_mem (h : r.Ordered) {e : Entry α} (he : e ∈ r.entries) :
    r.find? e.id = some e := by
  obtain ⟨i, hi⟩ := List.getElem?_of_mem he
  have hindex : r.indexOf? e.id = some i := h.indexOf?_eq_some_iff.mpr ⟨e, hi, rfl⟩
  rw [indexOf?] at hindex
  rw [find?, List.find?_eq_bind_findIdx?_getElem?, hindex]
  exact hi

theorem Ordered.set_eq_map (h : r.Ordered) {i : Nat} {e : Entry α} (e' : Entry α)
    (hi : r.entries[i]? = some e) :
    r.entries.set i e' = r.entries.map fun x => if x.id = e.id then e' else x := by
  refine List.ext_getElem? fun j => ?_
  rw [List.getElem?_map]
  cases hj : r.entries[j]? with
  | none => simpa using hj
  | some x =>
      by_cases hx : x.id = e.id
      · obtain rfl := h.index_unique hj hi hx
        have hlt : j < r.entries.length := (List.getElem?_eq_some_iff.mp hj).1
        simp [hx, hlt]
      · have hne : i ≠ j := by
          rintro rfl
          exact hx (congrArg Entry.id (Option.some.inj (hj.symm.trans hi)))
        simp [hx, List.getElem?_set_ne hne, hj]

/-- A variable has another entry, and all else is as it was. -/
structure Replaced (r : Registry α) (id : VariableId) (e e' : Entry α) (r' : Registry α) :
    Prop where
  before : r.find? id = some e
  after : r'.find? id = some e'
  entries : r'.entries = r.entries.map fun x => if x.id = id then e' else x

/-- Where identities are distinct, an update changes the entry that is looked up and no other. -/
theorem Ordered.replaced_of_update (h : r.Ordered) {β : Type} {b : β}
    {f : Entry α → Except VariableError (β × Entry α)}
    (hid : ∀ e e', f e = .ok (b, e') → e'.id = e.id) (hupdate : r.update id f = .ok (b, r')) :
    ∃ e e', f e = .ok (b, e') ∧ r.Replaced id e e' r' := by
  obtain ⟨i, e, e', hi, he, hfe, rfl⟩ := update_eq_ok hupdate
  have hfind : r.find? id = some e := (find?_eq_getElem? hi).trans he
  have hid' : e'.id = id := (hid e e' hfe).trans (id_of_find? hfind)
  refine ⟨e, e', hfe, hfind, (located_set hi hid').2, ?_⟩
  change r.entries.set i e' = _
  rw [h.set_eq_map e' he, id_of_find? hfind]

theorem Ordered.nodup_ids (h : r.Ordered) : r.ids.Nodup := by
  refine h.increasing.imp ?_
  rintro a b hlt rfl
  exact UInt32.lt_irrefl _ hlt

theorem Ordered.congr (h : r.Ordered) (hids : r'.ids = r.ids) (hnext : r'.nextId = r.nextId) :
    r'.Ordered :=
  ⟨hids ▸ h.increasing, hids ▸ hnext ▸ h.below⟩

theorem ordered_empty : (empty : Registry α).Ordered :=
  ⟨List.Pairwise.nil, List.forall_mem_nil _⟩

theorem ids_push {name : String} {c : Content α} (h : r.push name c = some (id, r')) :
    r'.ids = r.ids ++ [id] := by
  obtain ⟨-, rfl, rfl⟩ := push_eq_some h
  simp [ids]

theorem Ordered.push (h : r.Ordered) {name : String} {c : Content α}
    (hpush : r.push name c = some (id, r')) (hroom : r.nextId.toNat + 1 < UInt32.size) :
    r'.Ordered := by
  have hids := ids_push hpush
  obtain ⟨-, rfl, rfl⟩ := push_eq_some hpush
  -- There is room, so the counter does not start anew.
  have hnext : r.nextId < r.nextId + 1 := by
    rw [UInt32.lt_iff_toNat_lt, UInt32.toNat_add]
    have hmod := Nat.mod_eq_of_lt hroom
    simp only [UInt32.size] at hmod
    simp
    omega
  constructor
  · rw [hids, List.pairwise_append]
    refine ⟨h.increasing, List.pairwise_singleton _ _, ?_⟩
    intro a ha b hb
    rw [List.mem_singleton.mp hb]
    exact h.below a ha
  · intro a ha
    rw [hids] at ha
    rcases List.mem_append.mp ha with hold | hnew
    · exact UInt32.lt_trans (h.below a hold) hnext
    · rw [List.mem_singleton.mp hnew]
      exact hnext

theorem push_isSome_iff {name : String} {c : Content α} :
    (r.push name c).isSome = true ↔ r.entries.length < capacity := by
  rw [push]
  split
  · next hfull =>
      have hle : capacity ≤ r.entries.length := by simpa [isFull] using hfull
      simpa using hle
  · next hfree =>
      have hlt : r.entries.length < capacity := by simpa [isFull] using hfree
      simpa using hlt

theorem entries_push {name : String} {c : Content α} (h : r.push name c = some (id, r')) :
    r'.entries = r.entries ++ [⟨id, name, c⟩] := by
  obtain ⟨-, rfl, rfl⟩ := push_eq_some h
  rfl

theorem Ordered.remove (h : r.Ordered) {x : Variable α} (hremove : r.remove id = some (x, r')) :
    r'.Ordered := by
  obtain ⟨e, -, -, rfl⟩ := remove_eq_some hremove
  have hsub : ({ r with entries := r.entries.eraseP fun e => e.id == id } : Registry α).ids.Sublist
      r.ids :=
    List.eraseP_sublist.map _
  exact ⟨h.increasing.sublist hsub, fun a ha => h.below a (hsub.subset ha)⟩

theorem Ordered.remove_of_mem (h : r.Ordered) (hid : id ∈ r.ids) :
    ∃ before e after, r.entries = before ++ e :: after ∧ e.id = id ∧
      (∀ e' ∈ before ++ after, e'.id ≠ id) ∧
      r.remove id = some (e.toVariable, { r with entries := before ++ after }) := by
  obtain ⟨x, hx, hxid⟩ := mem_ids_iff.mp hid
  have hp : (x.id == id) = true := by simpa using hxid
  obtain ⟨e, before, after, hbefore, he, hsplit, herase⟩ :=
    List.exists_of_eraseP (p := fun e : Entry α => e.id == id) hx hp
  have heid : e.id = id := by simpa using he
  have hfind : r.find? id = some e := by
    rw [find?, List.find?_eq_some_iff_append]
    refine ⟨he, before, after, hsplit, fun b hb => ?_⟩
    simpa using hbefore b hb
  refine ⟨before, e, after, hsplit, heid, ?_, ?_⟩
  · -- The entries in front were passed over, and those behind have larger identities.
    intro e' he' heq
    rcases List.mem_append.mp he' with hfront | hback
    · exact hbefore e' hfront (by simpa using heq)
    · have hincreasing := List.pairwise_map.mp h.increasing
      rw [hsplit, List.pairwise_append, List.pairwise_cons] at hincreasing
      have hlt := hincreasing.2.1.1 e' hback
      rw [heid, heq] at hlt
      exact UInt32.lt_irrefl _ hlt
  · rw [Registry.remove, hfind, Option.map_some, herase]

theorem remove_of_not_mem (hid : id ∉ r.ids) : r.remove id = none := by
  rw [Registry.remove, find?_eq_none_iff.mpr hid]
  rfl

theorem Ordered.not_mem_ids_of_push (h : r.Ordered) {name : String} {c : Content α}
    (hpush : r.push name c = some (id, r')) : id ∉ r.ids := by
  intro hid
  obtain ⟨-, rfl, -⟩ := push_eq_some hpush
  exact UInt32.lt_irrefl _ (h.below _ hid)

theorem find?_of_entries_append {e : Entry α} (hid : e.id ∉ r.ids)
    (h : r'.entries = r.entries ++ [e]) : r'.find? e.id = some e := by
  have hnone : r.entries.find? (fun x => x.id == e.id) = none := find?_eq_none_iff.mpr hid
  rw [find?, h, List.find?_append, hnone]
  simp

/-- What an operation can do to the identities, and the one that it gives out. -/
inductive Performed (r : Registry α) : Registry α → Option VariableId → Prop
  | kept {r' : Registry α} (hkinds : r'.kinds = r.kinds) (hnext : r'.nextId = r.nextId) :
      Performed r r' none
  | pushed {name : String} {c : Content α} {id : VariableId} {r' : Registry α}
      (h : r.push name c = some (id, r')) : Performed r r' (some id)
  | removed {id : VariableId} {x : Variable α} {r' : Registry α}
      (h : r.remove id = some (x, r')) : Performed r r' none

theorem Performed.refl (r : Registry α) : r.Performed r none :=
  .kept rfl rfl

/-- A registry after `n` additions. -/
structure Counted (r : Registry α) (n : Nat) : Prop where
  fits : r.entries.length ≤ capacity
  counter : r.nextId = UInt32.ofNat n
  ordered : n < UInt32.size → r.Ordered

theorem counted_empty : (empty : Registry α).Counted 0 :=
  ⟨Nat.zero_le _, rfl, fun _ => ordered_empty⟩

theorem Performed.counted {given : Option VariableId} {n : Nat} (h : r.Performed r' given)
    (hr : r.Counted n) : r'.Counted (n + given.toList.length) := by
  cases h with
  | kept hkinds hnext =>
      have hids : r'.ids = r.ids := by rw [← map_fst_kinds, hkinds, map_fst_kinds]
      have hlength : r'.entries.length = r.entries.length := by
        simpa [ids] using congrArg List.length hids
      exact ⟨hlength ▸ hr.fits, hnext.trans hr.counter, fun hn => (hr.ordered hn).congr hids hnext⟩
  | pushed h =>
      refine ⟨length_push h, ?_, ?_⟩
      · obtain ⟨-, -, rfl⟩ := push_eq_some h
        simp [hr.counter, UInt32.ofNat_add]
      · intro hn
        have hn' : n + 1 < UInt32.size := hn
        refine (hr.ordered (by omega)).push h ?_
        rw [hr.counter, UInt32.toNat_ofNat_of_lt' (by omega)]
        exact hn'
  | removed h =>
      refine ⟨Nat.le_trans (length_remove h) hr.fits, ?_, fun hn => (hr.ordered hn).remove h⟩
      obtain ⟨e, -, -, rfl⟩ := remove_eq_some h
      exact hr.counter

theorem performed_push {name : String} {c : Content α} :
    r.Performed (((r.push name c).map Prod.snd).getD r) ((r.push name c).map Prod.fst) := by
  cases h : r.push name c with
  | none => exact .refl r
  | some u => exact .pushed h

section

variable {β : Type} {b : β} {f : Entry α → Except VariableError (β × Entry α)}

theorem nextId_update (h : r.update id f = .ok (b, r')) : r'.nextId = r.nextId := by
  obtain ⟨i, e, e', -, -, -, rfl⟩ := update_eq_ok h
  rfl

theorem kinds_update (hkind : ∀ b e e', f e = .ok (b, e') → e'.kind = e.kind) :
    (((r.update id f).toOption.map Prod.snd).getD r).kinds = r.kinds := by
  cases h : r.update id f with
  | error err => rfl
  | ok u => exact map_entries_update (hkind u.1) h

theorem nextId_orSame : (((r.update id f).toOption.map Prod.snd).getD r).nextId = r.nextId := by
  cases h : r.update id f with
  | error err => rfl
  | ok u => exact nextId_update h

end

end Registry

variable [Scalar α]

namespace Entry

variable {e e' : Entry α}

theorem kind_edit {field : Field} {text : String} {k : Edit}
    (h : e.edit field text = .ok (k, e')) : e'.kind = e.kind := by
  cases edited_of_edit h <;> rfl

theorem kind_slide {raw x : α} (h : e.slide raw = .ok (x, e')) : e'.kind = e.kind := by
  obtain ⟨id, name, s, rfl, -, rfl⟩ := slid_of_slide h
  rfl

theorem kind_setPoint {z : PlanePoint α} {v : View α} {size : Option (ScreenSize α)} {u : Unit}
    (h : e.setPoint z v size = .ok (u, e')) : e'.kind = e.kind := by
  obtain ⟨id, name, w, handle, rfl, rfl⟩ := moved_of_setPoint h
  rfl

end Entry

namespace Registry

theorem kinds_placeMarkers (r : Registry α) (v : View α) (size : Option (ScreenSize α)) :
    (r.placeMarkers v size).kinds = r.kinds := by
  simp only [placeMarkers, kinds, List.map_map]
  apply List.map_congr_left
  intro e _
  cases hc : e.content <;> simp [Entry.kind, hc, Content.placeMarker, Content.isPoint,
    Content.handle?]

/-- The registry after an operation. One that is refused leaves it as it was. -/
def perform (r : Registry α) : Operation α → Registry α
  | .addSlider name s => ((r.addSlider name s).map Prod.snd).getD r
  | .addPoint name z => ((r.addPoint name z).map Prod.snd).getD r
  | .remove id => ((r.remove id).map Prod.snd).getD r
  | .edit id field text => ((r.edit id field text).toOption.map Prod.snd).getD r
  | .slide id raw => ((r.slide id raw).toOption.map Prod.snd).getD r
  | .setPoint id z v size => ((r.setPoint id z v size).toOption.map Prod.snd).getD r
  | .placeMarkers v size => r.placeMarkers v size

/-- The identity that an operation gives out: only a successful addition does. -/
def issued? (r : Registry α) : Operation α → Option VariableId
  | .addSlider name s => (r.addSlider name s).map Prod.fst
  | .addPoint name z => (r.addPoint name z).map Prod.fst
  | _ => none

def run (r : Registry α) (ops : List (Operation α)) : Registry α :=
  ops.foldl perform r

/-- All identities given out along a run, in their order. -/
def issued (r : Registry α) : List (Operation α) → List VariableId
  | [] => []
  | op :: ops => (r.issued? op).toList ++ (r.perform op).issued ops

@[simp] theorem run_nil (r : Registry α) : r.run [] = r := rfl

@[simp] theorem run_cons (r : Registry α) (op : Operation α) (ops : List (Operation α)) :
    r.run (op :: ops) = (r.perform op).run ops := rfl

theorem kinds_perform (r : Registry α) {op : Operation α} (hop : op.isInPlace = true) :
    (r.perform op).kinds = r.kinds := by
  cases op with
  | addSlider name s => cases hop
  | addPoint name z => cases hop
  | remove id => cases hop
  | edit id field text => exact kinds_update fun _ _ _ => Entry.kind_edit
  | slide id raw => exact kinds_update fun _ _ _ => Entry.kind_slide
  | setPoint id z v size => exact kinds_update fun _ _ _ => Entry.kind_setPoint
  | placeMarkers v size => exact r.kinds_placeMarkers v size

/-- The kinds change only where an identity is given out or a live variable is removed. -/
theorem kinds_perform_of_not_issued (r : Registry α) {op : Operation α} (hop : r.issued? op = none)
    (hremove : ∀ id ∈ r.ids, op ≠ .remove id) : (r.perform op).kinds = r.kinds := by
  cases op with
  | addSlider name s =>
      have hnone : r.addSlider name s = none := Option.map_eq_none_iff.mp hop
      rw [perform, hnone]
      rfl
  | addPoint name z =>
      have hnone : r.addPoint name z = none := Option.map_eq_none_iff.mp hop
      rw [perform, hnone]
      rfl
  | remove id =>
      rw [perform, remove_of_not_mem fun hid => hremove id hid rfl]
      rfl
  | edit id field text => exact r.kinds_perform rfl
  | slide id raw => exact r.kinds_perform rfl
  | setPoint id z v size => exact r.kinds_perform rfl
  | placeMarkers v size => exact r.kinds_perform rfl

theorem performed (r : Registry α) (op : Operation α) :
    r.Performed (r.perform op) (r.issued? op) := by
  cases op with
  | addSlider name s => exact performed_push
  | addPoint name z => exact performed_push
  | remove id =>
      cases h : r.remove id with
      | none => simpa [perform, issued?, h] using Performed.refl r
      | some u => simpa [perform, issued?, h] using Performed.removed h
  | edit id field text => exact .kept (r.kinds_perform rfl) nextId_orSame
  | slide id raw => exact .kept (r.kinds_perform rfl) nextId_orSame
  | setPoint id z v size => exact .kept (r.kinds_perform rfl) nextId_orSame
  | placeMarkers v size => exact .kept (r.kinds_perform rfl) rfl

theorem Counted.run {r : Registry α} {n : Nat} (h : r.Counted n) (ops : List (Operation α)) :
    (r.run ops).Counted (n + (r.issued ops).length) := by
  induction ops generalizing r n with
  | nil => exact h
  | cons op ops ih =>
      have hop := (r.performed op).counted h
      have hrest := ih hop
      rw [run_cons, issued, List.length_append, ← Nat.add_assoc]
      exact hrest

/-- The identities given out are consecutive values of the counter. -/
theorem issued_eq_range {r : Registry α} {n : Nat} (h : r.Counted n) (ops : List (Operation α)) :
    r.issued ops = (List.range' n (r.issued ops).length).map fun i => ⟨UInt32.ofNat i⟩ := by
  induction ops generalizing r n with
  | nil => rfl
  | cons op ops ih =>
      have hop := (r.performed op).counted h
      have hrest := ih hop
      rw [issued, List.length_append]
      cases hgiven : r.issued? op with
      | none =>
          rw [hgiven] at hrest
          simpa using hrest
      | some id =>
          have hid : id = ⟨UInt32.ofNat n⟩ := by
            have hperformed := r.performed op
            rw [hgiven] at hperformed
            cases hperformed with
            | pushed hpush =>
                obtain ⟨-, hid, -⟩ := push_eq_some hpush
                rw [hid, h.counter]
          rw [hgiven] at hrest
          simp only [Option.toList_some, List.length_singleton] at hrest ⊢
          rw [Nat.add_comm 1, List.range'_succ, List.map_cons, ← hid, ← hrest]
          rfl

theorem nodup_issued {r : Registry α} {n : Nat} (h : r.Counted n) (ops : List (Operation α))
    (hadds : n + (r.issued ops).length ≤ UInt32.size) : (r.issued ops).Nodup := by
  rw [issued_eq_range h ops]
  have hrange := List.pairwise_lt_range' (s := n) (n := (r.issued ops).length) 1
  refine List.pairwise_map.mpr (hrange.imp_of_mem ?_)
  intro i j hi hj hlt heq
  have hi' := (List.mem_range'_1.mp hi).2
  have hj' := (List.mem_range'_1.mp hj).2
  have hnat : (UInt32.ofNat i).toNat = (UInt32.ofNat j).toNat :=
    congrArg UInt32.toNat (VariableId.mk.inj heq)
  rw [UInt32.toNat_ofNat_of_lt' (by omega), UInt32.toNat_ofNat_of_lt' (by omega)] at hnat
  omega

/-- Whatever is asked of a registry, its identities stay what they are for. Along every run of
operations that does not exhaust the counter, there are never more variables than slots, the live
identities increase from slot to slot below the counter, and no identity is given out twice. The
place of an identity is the slot of the variable that has it. A variable is added exactly if a slot
is free, and then in the last place; a live one is removed without any change to the others, and one
that is not live is not removed at all. An operation that neither adds a variable nor removes a live
one leaves the identities and the kinds of all variables as they were. -/
theorem run_keeps_identities (ops : List (Operation α))
    (hadds : ((empty : Registry α).issued ops).length < UInt32.size) :
    let r : Registry α := empty.run ops
    r.entries.length ≤ capacity ∧
    r.ids.Pairwise (fun a b => a.index < b.index) ∧
    (∀ id ∈ r.ids, id.index < r.nextId) ∧
    ((empty : Registry α).issued ops).Nodup ∧
    (∀ id i, r.indexOf? id = some i ↔ (r.toVariables[i]?).map Variable.id = some id) ∧
    (∀ name s, ((r.addSlider name s).isSome = true ↔ r.entries.length < capacity) ∧
      ∀ id r', r.addSlider name s = some (id, r') →
        r'.entries = r.entries ++ [⟨id, name, .slider s.finiteOrZero⟩]) ∧
    (∀ name z, ((r.addPoint name z).isSome = true ↔ r.entries.length < capacity) ∧
      ∀ id r', r.addPoint name z = some (id, r') →
        r'.entries = r.entries ++ [⟨id, name, .point z.finiteOrZero (.ofPoint z.finiteOrZero)⟩]) ∧
    (∀ id ∈ r.ids, ∃ before e after, r.entries = before ++ e :: after ∧ e.id = id ∧
      (∀ e' ∈ before ++ after, e'.id ≠ id) ∧
      r.remove id = some (e.toVariable, { r with entries := before ++ after })) ∧
    (∀ id, id ∉ r.ids → r.remove id = none) ∧
    ∀ op : Operation α, r.issued? op = none → (∀ id ∈ r.ids, op ≠ .remove id) →
      (r.perform op).kinds = r.kinds := by
  intro r
  have hr : r.Counted (0 + ((empty : Registry α).issued ops).length) := counted_empty.run ops
  rw [Nat.zero_add] at hr
  have hordered : r.Ordered := hr.ordered hadds
  refine ⟨hr.fits, hordered.increasing, hordered.below, ?_, ?_, ?_, ?_, ?_, ?_, ?_⟩
  · exact nodup_issued counted_empty ops (by omega)
  · intro id i
    rw [hordered.indexOf?_eq_some_iff]
    simp [toVariables, Entry.toVariable]
  · exact fun name s => ⟨push_isSome_iff, fun id r' h => entries_push h⟩
  · exact fun name z => ⟨push_isSome_iff, fun id r' h => entries_push h⟩
  · exact fun id hid => hordered.remove_of_mem hid
  · exact fun id hid => remove_of_not_mem hid
  · exact fun op hop hremove => r.kinds_perform_of_not_issued hop hremove

/-- After a removal and an addition the identities have a gap in front. The removed variable is not
removed again, and a field that a variable does not have changes nothing. -/
theorem run_keeps_identities_with_gap :
    let ops : List (Operation Float) :=
      [.addPoint "a" ⟨0, 0⟩, .addSlider "b" .initial, .addPoint "c" ⟨1, 1⟩, .remove ⟨0⟩,
        .addSlider "d" .initial]
    let r : Registry Float := empty.run ops
    ((empty : Registry Float).issued ops).length < UInt32.size ∧
      r.toVariables.map Variable.id = [⟨1⟩, ⟨2⟩, ⟨3⟩] ∧ r.indexOf? ⟨3⟩ = some 2 ∧
      ((empty : Registry Float).issued ops).Nodup ∧ r.remove ⟨0⟩ = none ∧
      (r.perform (.remove ⟨0⟩)).kinds = r.kinds ∧
      (r.perform (.edit ⟨1⟩ .re "5")).kinds = r.kinds := by
  intro ops r
  have hadds : ((empty : Registry Float).issued ops).length < UInt32.size := by decide +kernel
  have hids : r.toVariables.map Variable.id = [⟨1⟩, ⟨2⟩, ⟨3⟩] := by decide +kernel
  have hgone : ⟨0⟩ ∉ r.ids := by decide +kernel
  obtain ⟨-, -, -, hissued, hindex, -, -, -, hdead, hkinds⟩ := run_keeps_identities ops hadds
  refine ⟨hadds, hids, (hindex _ _).mpr ?_, hissued, hdead _ hgone, hkinds _ rfl ?_,
    hkinds _ rfl ?_⟩
  · decide +kernel
  · rintro id hid heq
    cases heq
    exact hgone hid
  · rintro id - heq
    cases heq

end Registry

end PlotPane
