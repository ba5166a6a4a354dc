import PlotPane.Number.Double
import PlotPane.Proofs.Answers

/-!
# The plotter knows the variables

The last write to every slot in use is the value of its variable, and the last compilation bound the
names that the variables have. All slots are sent with a compilation and after an edit or a slide; a
drag sends one slot, and it is the only one that it changes.
-/

namespace PlotPane

variable {α σ : Type}

theorem Call.lastOf_slotAt_zipIdx (zs : List (PlanePoint α)) (first i : Nat) :
    Call.lastOf (Call.slotAt? i) ((zs.zipIdx first).map fun s => Call.slot s.2 s.1) =
      if first ≤ i then zs[i - first]? else none := by
  induction zs generalizing first with
  | nil => simp
  | cons z zs ih =>
      -- The slot of the head is written first, and none of the later writes reaches it again.
      rw [List.zipIdx_cons, List.map_cons, Call.lastOf_cons, ih (first + 1)]
      rcases Nat.lt_trichotomy i first with hlt | rfl | hgt
      · have h₁ : ¬ first + 1 ≤ i := by omega
        have h₂ : ¬ first ≤ i := by omega
        have h₃ : ¬ first = i := by omega
        simp [Call.slotAt?, h₁, h₂, h₃]
      · have h₁ : ¬ i + 1 ≤ i := by omega
        simp [Call.slotAt?, h₁]
      · have h₁ : first + 1 ≤ i := hgt
        have h₂ : first ≤ i := by omega
        have h₃ : ¬ first = i := by omega
        have h₄ : i - first = (i - (first + 1)) + 1 := by omega
        simp [Call.slotAt?, h₁, h₂, h₃, h₄]

theorem Call.names?_of_topic {c : Call α} (h : c.topic ≠ .program) : c.names? = none := by
  cases c with
  | compile source names => exact absurd rfl h
  | _ => rfl

theorem Call.slotAt?_of_topic {c : Call α} (h : c.topic ≠ .slots) (i : Nat) :
    c.slotAt? i = none := by
  cases c with
  | slot j z => exact absurd rfl h
  | _ => rfl

variable [Scalar α]

namespace Registry

/-- A list of calls after which the plotter has the slots and the names of a registry. -/
structure SentBy (r : Registry α) (cs : List (Call α)) : Prop where
  slots : ∀ i z, r.slots[i]? = some z → Call.lastOf (Call.slotAt? i) cs = some z
  names : ∀ names, Call.lastOf Call.names? cs = some names → names = r.names
  unnamed : Call.lastOf Call.names? cs = none → r.names = []
  fits : r.names.length ≤ capacity
  indices : ∀ i z, Call.slot i z ∈ cs → i < capacity

variable {r r' : Registry α} {cs ds : List (Call α)}

theorem lastOf_slotAt_slotCalls (r : Registry α) (i : Nat) :
    Call.lastOf (Call.slotAt? i) r.slotCalls = r.slots[i]? := by
  rw [slotCalls, Call.lastOf_slotAt_zipIdx]
  simp

theorem mem_slotCalls {i : Nat} {z : PlanePoint α} (h : Call.slot i z ∈ r.slotCalls) :
    i < r.names.length := by
  obtain ⟨⟨w, j⟩, hmem, heq⟩ := List.mem_map.mp h
  obtain ⟨rfl, rfl⟩ := Call.slot.inj heq
  have hj : j < r.slots.length := by
    simpa using (List.mem_zipIdx hmem).2.1
  simpa [names, slots] using hj

theorem names?_slotCalls {c : Call α} (h : c ∈ r.slotCalls) : c.names? = none := by
  apply Call.names?_of_topic
  rw [topic_slotCalls h]
  decide

theorem sentBy_nil : (empty : Registry α).SentBy [] where
  slots i z h := by simp [empty, Registry.slots] at h
  names names h := by simp at h
  unnamed _ := rfl
  fits := Nat.zero_le _
  indices i z h := by simp at h

theorem SentBy.congr (h : r.SentBy cs) (hslots : r'.slots = r.slots)
    (hnames : r'.names = r.names) : r'.SentBy cs where
  slots := hslots ▸ h.slots
  names := hnames ▸ h.names
  unnamed := hnames ▸ h.unnamed
  fits := hnames ▸ h.fits
  indices := h.indices

theorem SentBy.append_other (h : r.SentBy cs)
    (hother : ∀ d ∈ ds, d.topic ≠ .slots ∧ d.topic ≠ .program) : r.SentBy (cs ++ ds) := by
  have hslot (i : Nat) : Call.lastOf (Call.slotAt? i) (cs ++ ds) =
      Call.lastOf (Call.slotAt? i) cs :=
    Call.lastOf_append_of_none (fun d hd => Call.slotAt?_of_topic (hother d hd).1 i) cs
  have hnames : Call.lastOf Call.names? (cs ++ ds) = Call.lastOf Call.names? cs :=
    Call.lastOf_append_of_none (fun d hd => Call.names?_of_topic (hother d hd).2) cs
  refine ⟨?_, ?_, ?_, h.fits, ?_⟩
  · intro i z hz
    rw [hslot]
    exact h.slots i z hz
  · rw [hnames]
    exact h.names
  · rw [hnames]
    exact h.unnamed
  · intro i z hmem
    rcases List.mem_append.mp hmem with hmem | hmem
    · exact h.indices i z hmem
    · exact absurd rfl (hother _ hmem).1

theorem SentBy.append_drawn (h : r.SentBy cs) (o : Outcome) : r.SentBy (cs ++ o.calls) := by
  apply h.append_other
  intro d hd
  rw [Outcome.topic_calls hd]
  decide

theorem SentBy.append_slots (h : r.SentBy cs) (hnames : r'.names = r.names) :
    r'.SentBy (cs ++ r'.slotCalls) := by
  have hlast : Call.lastOf Call.names? (cs ++ r'.slotCalls) = Call.lastOf Call.names? cs :=
    Call.lastOf_append_of_none (fun _ hd => names?_slotCalls hd) cs
  refine ⟨?_, ?_, ?_, hnames ▸ h.fits, ?_⟩
  · intro i z hz
    rw [Call.lastOf_append, lastOf_slotAt_slotCalls, hz]
    rfl
  · rw [hlast, hnames]
    exact h.names
  · rw [hlast, hnames]
    exact h.unnamed
  · intro i z hmem
    rcases List.mem_append.mp hmem with hmem | hmem
    · exact h.indices i z hmem
    · exact Nat.lt_of_lt_of_le (mem_slotCalls hmem) (hnames ▸ h.fits)

theorem SentBy.append_compile (h : r.SentBy cs) (hfits : r'.names.length ≤ capacity)
    (source : String) : r'.SentBy (cs ++ (r'.slotCalls ++ [.compile source r'.names])) := by
  refine ⟨?_, ?_, ?_, hfits, ?_⟩
  · intro i z hz
    rw [Call.lastOf_append, Call.lastOf_append, lastOf_slotAt_slotCalls, hz]
    rfl
  · intro names hlast
    rw [Call.lastOf_append, Call.lastOf_append] at hlast
    exact (Option.some.inj hlast).symm
  · intro hlast
    rw [Call.lastOf_append, Call.lastOf_append] at hlast
    cases hlast
  · intro i z hmem
    rcases List.mem_append.mp hmem with hmem | hmem
    · exact h.indices i z hmem
    · rcases List.mem_append.mp hmem with hmem | hmem
      · exact Nat.lt_of_lt_of_le (mem_slotCalls hmem) hfits
      · cases List.mem_singleton.mp hmem

theorem SentBy.append_slot {i : Nat} {z : PlanePoint α} (h : r.SentBy cs)
    (hi : i < r'.names.length) (hslots : r'.slots = r.slots.set i z)
    (hnames : r'.names = r.names) : r'.SentBy (cs ++ [.slot i z]) := by
  have hlast : Call.lastOf Call.names? (cs ++ [.slot i z]) = Call.lastOf Call.names? cs :=
    Call.lastOf_append_of_none (fun d hd => by rw [List.mem_singleton.mp hd]; rfl) cs
  refine ⟨?_, ?_, ?_, hnames ▸ h.fits, ?_⟩
  · intro j w hw
    rw [Call.lastOf_append, Call.lastOf_singleton, Call.slotAt?]
    rw [hslots, List.getElem?_set] at hw
    split at hw
    · next hij =>
        subst hij
        split at hw
        · rw [if_pos rfl]
          exact hw
        · cases hw
    · -- The other slots were not written, and their numbers are the old ones.
      next hij =>
        rw [if_neg hij]
        exact h.slots j w hw
  · rw [hlast, hnames]
    exact h.names
  · rw [hlast, hnames]
    exact h.unnamed
  · intro j w hmem
    rcases List.mem_append.mp hmem with hmem | hmem
    · exact h.indices j w hmem
    · obtain ⟨rfl, -⟩ := Call.slot.inj (List.mem_singleton.mp hmem)
      exact Nat.lt_of_lt_of_le hi (hnames ▸ h.fits)

theorem Relisted.fits {v : View α} {size : Option (ScreenSize α)} (h : r.Relisted v size r')
    (hr : r.names.length ≤ capacity) : r'.names.length ≤ capacity := by
  rw [length_names] at hr ⊢
  cases h with
  | same => exact hr
  | slider h => exact length_push h
  | point h =>
      rw [length_placeMarkers]
      exact length_push h
  | removed h => exact Nat.le_trans (length_remove h) hr
  | renamed h => exact Nat.le_trans (Nat.le_of_eq (length_update h)) hr

theorem Revalued.names_eq {v : View α} {size : Option (ScreenSize α)}
    (h : r.Revalued v size r') : r'.names = r.names := by
  cases h with
  | typed h =>
      rw [names_placeMarkers]
      exact names_edit (by decide) h
  | slid h => exact names_slide h

end Registry

theorem Session.Effect.sentBy {compiler : Compiler} {event : Event α} {s s' : Session α σ}
    {cs log : List (Call α)} (h : Session.Effect compiler event s s' cs)
    (hs : s.registry.SentBy log) : s'.registry.SentBy (log ++ cs) := by
  cases h with
  | silent => simpa using hs
  | auto b => simpa using hs
  | preferred h => simpa using hs
  | drawn h => exact hs.append_drawn _
  | restyled h =>
      rw [List.append_cons]
      refine (hs.append_other ?_).append_drawn _
      simp [h.topic]
  | unseen hsize h => simpa using hs
  | @looked v size hsize h =>
      have hplaced : (s.registry.placeMarkers v (some size)).SentBy log :=
        hs.congr (Registry.slots_placeMarkers ..) (Registry.names_placeMarkers ..)
      rw [List.append_cons]
      refine (hplaced.append_other ?_).append_drawn _
      simp [Call.topic, Call.kind, Call.Kind.topic]
  | @surfaced v size h =>
      have hplaced : (s.registry.placeMarkers v (some size)).SentBy log :=
        hs.congr (Registry.slots_placeMarkers ..) (Registry.names_placeMarkers ..)
      rw [← List.append_assoc]
      refine (hplaced.append_other fun d hd => ?_).append_drawn _
      rw [View.topic_calls hd]
      decide
  | ranged h =>
      have hr := hs.congr (Registry.slots_edit_range h) (Registry.names_edit (by decide) h)
      simpa using hr
  | revalued h =>
      rw [← List.append_assoc]
      exact (hs.append_slots h.names_eq).append_drawn _
  | @dragged id z size r i e hsize h hi he =>
      obtain ⟨j, d, hj, hd, hslots⟩ := Registry.slots_setPoint h
      obtain rfl : i = j := Option.some.inj (hi.symm.trans hj)
      obtain rfl : e = d := Option.some.inj (he.symm.trans hd)
      have hlt : i < r.names.length := by
        obtain ⟨hlt, -⟩ := List.findIdx?_eq_some_iff_getElem.mp hi
        rwa [Registry.length_names]
      rw [List.append_cons]
      exact (hs.append_slot hlt hslots (Registry.names_setPoint h)).append_drawn _
  | compiled h hc =>
      have hfits := h.fits hs.fits
      cases hc with
      | accepted hv =>
          rw [List.append_cons, ← List.append_assoc]
          exact (hs.append_compile hfits s.source).append_drawn _
      | rejected hv => exact hs.append_compile hfits s.source

namespace Transcript

variable [KeyValueStore σ]

theorem sentBy_run {r : Transcript α σ} (h : r.session.registry.SentBy r.calls)
    (steps : List (Step α)) : (r.run steps).session.registry.SentBy (r.run steps).calls := by
  refine run_keeps_calls (P := fun s cs => s.registry.SentBy cs) ?_ ?_ ?_ h steps
  · intro s s' log haside hs
    rwa [haside.registry]
  · intro compiler event s s' cs log heffect hs
    exact heffect.sentBy hs
  · intro s log hs
    apply hs.append_other
    intro d hd
    rw [Style.topic_calls hd]
    decide

/-- Whatever happened in a session, the plotter has the variables as they are: the last write to the
slot of each carries its value, the last compilation bound the names in their order, and no slot
beyond the last was ever written. -/
theorem run_mirrors_variables {store : σ} {settings : Settings α} {s : Session α σ}
    (hs : Session.ofSettings store settings = .ok s) (steps : List (Step α)) :
    let r := (ofSession s).run steps
    (∀ i v, r.session.registry.toVariables[i]? = some v →
      Call.lastOf (Call.slotAt? i) r.calls = some v.value.slot) ∧
    (∀ source names, Call.compile source names ∈ r.calls →
      Call.lastOf Call.names? r.calls = some r.session.registry.names) ∧
    ((∀ source names, Call.compile source names ∉ r.calls) → r.session.registry.entries = []) ∧
    ∀ i z, Call.slot i z ∈ r.calls → i < Registry.capacity := by
  intro r
  obtain ⟨-, rfl⟩ := Session.ofSettings_eq_ok_iff.mp hs
  have hr : r.session.registry.SentBy r.calls := sentBy_run Registry.sentBy_nil steps
  refine ⟨?_, ?_, ?_, hr.indices⟩
  · intro i v hv
    obtain ⟨e, he, rfl⟩ : ∃ e, r.session.registry.entries[i]? = some e ∧ e.toVariable = v := by
      simpa [Registry.toVariables] using hv
    apply hr.slots
    rw [Registry.slots, List.getElem?_map, he]
    rfl
  · intro source names hmem
    cases hlast : Call.lastOf Call.names? r.calls with
    | none => cases Call.lastOf_eq_none_iff.mp hlast _ hmem
    | some last => rw [hr.names last hlast]
  · intro hnone
    have hlast : Call.lastOf Call.names? r.calls = none := by
      rw [Call.lastOf_eq_none_iff]
      intro c hc
      cases c with
      | compile source names => exact absurd hc (hnone source names)
      | _ => rfl
    simpa [Registry.names] using hr.unnamed hlast

/-- A point is dragged while the expression does not compile: its slot follows the pointer. -/
theorem run_mirrors_variables_dragged :
    let s : Session Float MemoryStore := Session.begun ⟨[]⟩ .initial
    let rejecting : Compiler := fun _ _ => .rejected ""
    let steps : List (Step Float) :=
      [⟨rejecting, .resize 100 100⟩, ⟨rejecting, .addSlider "a" .initial⟩,
        ⟨rejecting, .addPoint "b" ⟨0, 0⟩⟩,
        ⟨rejecting, .pointerDown ⟨50, 50⟩ .primary (.ofMask 0)⟩,
        ⟨rejecting, .pointerMove ⟨75, 50⟩ (.ofMask 0)⟩]
    Session.ofSettings ⟨[]⟩ .initial = .ok s ∧
      Call.lastOf (Call.slotAt? 1) ((ofSession s).run steps).calls = some ⟨1.5, 0⟩ := by
  intro s rejecting steps
  have hs : Session.ofSettings ⟨[]⟩ .initial = .ok s :=
    Session.ofSettings_eq_ok_iff.mpr ⟨by decide +kernel, rfl⟩
  have hv : ((ofSession s).run steps).session.registry.toVariables[1]? =
      some ⟨⟨1⟩, "b", .point ⟨1.5, 0⟩⟩ := by
    decide +kernel
  exact ⟨hs, (run_mirrors_variables hs steps).1 1 _ hv⟩

end Transcript

end PlotPane
