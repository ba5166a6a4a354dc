import PlotPane.Proofs.Answers
import PlotPane.Proofs.Identities

/-!
# Markers are where their points are drawn

A marker is kept with its point, and three things decide where it belongs: the point, the view and
the screen. A marker is in its place if placing it once more would not move it, and after every
event all markers are in their places. Before there is a screen there is no place, whatever the view
is.
-/

namespace PlotPane

variable {α σ : Type}

/-- The content without the marker, if it has one. -/
def Content.unmarked : Content α → Content α
  | .slider s => .slider s
  | .point z h => .point z { h with marker := none }

def Entry.unmarked (e : Entry α) : Entry α :=
  { e with content := e.content.unmarked }

/-- All that a registry holds but the places of the markers. -/
def Registry.unmarked (r : Registry α) : Registry α :=
  { r with entries := r.entries.map Entry.unmarked }

variable [Scalar α]

namespace Content

variable {c : Content α} {v : View α} {size : Option (ScreenSize α)}

theorem unmarked_placeMarker (c : Content α) (v : View α) (size : Option (ScreenSize α)) :
    (c.placeMarker v size).unmarked = c.unmarked := by
  cases c <;> rfl

theorem placeMarker_unmarked (c : Content α) (v : View α) (size : Option (ScreenSize α)) :
    c.unmarked.placeMarker v size = c.placeMarker v size := by
  cases c <;> rfl

theorem placeMarker_placeMarker (c : Content α) (v v' : View α)
    (size size' : Option (ScreenSize α)) :
    (c.placeMarker v size).placeMarker v' size' = c.placeMarker v' size' := by
  cases c <;> rfl

theorem placeMarker_point_eq_self_iff {z : PlanePoint α} {h : PointHandle α} :
    (point z h).placeMarker v size = point z h ↔ h.marker = size.map fun s => v.toScreen s z := by
  obtain ⟨re, im, marker⟩ := h
  simp [placeMarker, PointHandle.placeMarker, eq_comm]

end Content

namespace Registry

/-- Every marker is where it would be put. -/
def Placed (r : Registry α) (v : View α) (size : Option (ScreenSize α)) : Prop :=
  ∀ e ∈ r.entries, e.content.placeMarker v size = e.content

variable {r r' : Registry α} {v v' : View α} {size : Option (ScreenSize α)} {id : VariableId}

theorem placed_placeMarkers (r : Registry α) (v : View α) (size : Option (ScreenSize α)) :
    (r.placeMarkers v size).Placed v size := by
  intro e he
  obtain ⟨x, -, rfl⟩ := List.mem_map.mp he
  exact x.content.placeMarker_placeMarker v v size size

@[simp] theorem unmarked_placeMarkers (r : Registry α) (v : View α)
    (size : Option (ScreenSize α)) : (r.placeMarkers v size).unmarked = r.unmarked := by
  simp only [unmarked, placeMarkers, List.map_map, Function.comp_def, Entry.unmarked,
    Content.unmarked_placeMarker]
  rfl

theorem placeMarkers_unmarked (r : Registry α) (v : View α) (size : Option (ScreenSize α)) :
    r.unmarked.placeMarkers v size = r.placeMarkers v size := by
  simp only [unmarked, placeMarkers, List.map_map, Function.comp_def, Entry.unmarked,
    Content.placeMarker_unmarked]

theorem Placed.unsized (h : r.Placed v none) : r.Placed v' none := by
  intro e he
  have hnone : e.content.placeMarker v' none = e.content.placeMarker v none := by
    cases e.content <;> rfl
  rw [hnone]
  exact h e he

theorem Placed.entry_eq (h : r.Placed v size) {e : Entry α} (he : e ∈ r.entries) :
    { e with content := e.content.placeMarker v size } = e := by
  rw [h e he]

theorem Placed.placeMarkers_eq (h : r.Placed v size) : r.placeMarkers v size = r := by
  have hentries : r.entries.map (fun e => { e with content := e.content.placeMarker v size }) =
      r.entries.map id :=
    List.map_congr_left fun _ he => h.entry_eq he
  rw [placeMarkers, hentries, List.map_id]

/-- Markers in their places add nothing to what a registry holds besides. -/
theorem Placed.eq_of_unmarked (h : r.Placed v size) (h' : r'.Placed v size)
    (heq : r'.unmarked = r.unmarked) : r' = r := by
  rw [← h.placeMarkers_eq, ← h'.placeMarkers_eq, ← placeMarkers_unmarked r, ← heq,
    placeMarkers_unmarked]

/-- Where all markers but that of a new entry are in their places, only that one is placed. -/
theorem Placed.placeMarkers_append (h : r.Placed v size) {e : Entry α}
    (hentries : r'.entries = r.entries ++ [e]) :
    (r'.placeMarkers v size).entries =
      r.entries ++ [{ e with content := e.content.placeMarker v size }] := by
  rw [placeMarkers, hentries, List.map_append]
  refine congrArg (· ++ _) ?_
  calc
    _ = r.entries.map id := List.map_congr_left fun _ hx => h.entry_eq hx
    _ = r.entries := List.map_id _

theorem Placed.replaced_placeMarkers (h : r.Placed v size) {e e' : Entry α}
    (hr : r.Replaced id e e' r') :
    r.Replaced id e { e' with content := e'.content.placeMarker v size }
      (r'.placeMarkers v size) := by
  refine ⟨hr.before, ?_, ?_⟩
  · have hfind := hr.after
    rw [find?] at hfind
    rw [find?, placeMarkers, List.find?_map]
    exact congrArg (Option.map _) hfind
  · rw [placeMarkers, hr.entries, List.map_map]
    apply List.map_congr_left
    intro x hx
    by_cases hid : x.id = id
    · simp only [Function.comp_apply, if_pos hid]
    · simp only [Function.comp_apply, if_neg hid]
      exact h.entry_eq hx

theorem Placed.update {β : Type} {b : β} {f : Entry α → Except VariableError (β × Entry α)}
    (h : r.Placed v size)
    (hf : ∀ e e', f e = .ok (b, e') → e.content.placeMarker v size = e.content →
      e'.content.placeMarker v size = e'.content)
    (hupdate : r.update id f = .ok (b, r')) : r'.Placed v size := by
  obtain ⟨i, e, e', -, he, hfe, rfl⟩ := update_eq_ok hupdate
  intro x hx
  rcases List.mem_or_eq_of_mem_set hx with hold | rfl
  · exact h x hold
  · exact hf e x hfe (h e (List.mem_of_getElem? he))

theorem Placed.push_slider (h : r.Placed v size) {name : String} {s : Slider α}
    (hpush : r.addSlider name s = some (id, r')) : r'.Placed v size := by
  obtain ⟨-, -, rfl⟩ := push_eq_some hpush
  intro e he
  rcases List.mem_append.mp he with hold | hnew
  · exact h e hold
  · rw [List.mem_singleton.mp hnew]
    rfl

theorem Placed.remove (h : r.Placed v size) {x : Variable α}
    (hremove : r.remove id = some (x, r')) : r'.Placed v size := by
  obtain ⟨e, -, -, rfl⟩ := remove_eq_some hremove
  exact fun e he => h e (List.mem_of_mem_eraseP he)

end Registry

namespace Entry

variable {e e' : Entry α} {v : View α} {size : Option (ScreenSize α)}

/-- A new name or range does not reach the marker. -/
theorem placed_edit {field : Field} {text : String} {k : Edit} (hk : k ≠ .value)
    (h : e.edit field text = .ok (k, e')) (he : e.content.placeMarker v size = e.content) :
    e'.content.placeMarker v size = e'.content := by
  cases edited_of_edit h with
  | name => exact he
  | min => rfl
  | max => rfl
  | step => rfl
  | value => exact absurd rfl hk
  | re => exact absurd rfl hk
  | im => exact absurd rfl hk

theorem placed_slide {raw x : α} (h : e.slide raw = .ok (x, e')) :
    e'.content.placeMarker v size = e'.content := by
  obtain ⟨id, name, s, rfl, -, rfl⟩ := slid_of_slide h
  rfl

theorem placed_setPoint {z : PlanePoint α} (h : e.setPoint z v size = .ok ((), e')) :
    e'.content.placeMarker v size = e'.content := by
  obtain ⟨id, name, w, handle, rfl, rfl⟩ := moved_of_setPoint h
  rfl

end Entry

namespace Registry

variable {r r' : Registry α} {v : View α} {size : Option (ScreenSize α)}

theorem Relisted.placed (h : r.Relisted v size r') (hr : r.Placed v size) : r'.Placed v size := by
  cases h with
  | same => exact hr
  | slider h => exact hr.push_slider h
  | point h => exact placed_placeMarkers _ v size
  | removed h => exact hr.remove h
  | renamed h => exact hr.update (fun _ _ he => Entry.placed_edit (by decide) he) h

theorem Revalued.placed (h : r.Revalued v size r') (hr : r.Placed v size) : r'.Placed v size := by
  cases h with
  | typed h => exact placed_placeMarkers _ v size
  | slid h => exact hr.update (fun _ _ he _ => Entry.placed_slide he) h

end Registry

namespace Session

variable {compiler : Compiler} {event : Event α} {s s' : Session α σ} {cs : List (Call α)}

theorem Effect.placed (h : Effect compiler event s s' cs)
    (hs : s.registry.Placed s.view s.size) : s'.registry.Placed s'.view s'.size := by
  cases h with
  | silent => exact hs
  | auto b => exact hs
  | preferred h => exact hs
  | drawn h => exact hs
  | restyled h => exact hs
  | unseen hsize h =>
      rw [hsize] at hs
      change s.registry.Placed _ s.size
      rw [hsize]
      exact hs.unsized
  | @looked v size hsize h =>
      change (s.registry.placeMarkers v (some size)).Placed v s.size
      rw [hsize]
      exact Registry.placed_placeMarkers s.registry v (some size)
  | @surfaced v size h => exact Registry.placed_placeMarkers s.registry v (some size)
  | ranged h => exact hs.update (fun _ _ he => Entry.placed_edit (by decide) he) h
  | revalued h => exact h.placed hs
  | @dragged id z size r i e hsize h hi he =>
      rw [hsize] at hs
      change r.Placed s.view s.size
      rw [hsize]
      exact hs.update (fun _ _ he _ => Entry.placed_setPoint he) h
  | compiled h hc =>
      obtain ⟨error, scheduler, rfl⟩ := hc.eq_with
      exact h.placed hs

theorem placed_begun [KeyValueStore σ] (store : σ) (settings : Settings α) :
    (begun store settings).registry.Placed (begun store settings).view
      (begun store settings).size :=
  List.forall_mem_nil _

end Session

namespace Transcript

variable [KeyValueStore σ]

theorem placed_run {r : Transcript α σ}
    (h : r.session.registry.Placed r.session.view r.session.size) (steps : List (Step α)) :
    (r.run steps).session.registry.Placed (r.run steps).session.view
      (r.run steps).session.size := by
  refine run_keeps_calls (P := fun s _ => s.registry.Placed s.view s.size) ?_ ?_ ?_ h steps
  · intro s s' log haside hs
    rw [haside.registry, haside.view, haside.size]
    exact hs
  · intro compiler event s s' cs log heffect hs
    exact heffect.placed hs
  · intro s log hs
    exact hs

/-- No marker is ever stale: after every event a slider has no handle, and a point has one whose
marker is exactly where the point is drawn in the view on the screen, which is nowhere before there
is a screen. -/
theorem run_markers_in_place {store : σ} {settings : Settings α} {s : Session α σ}
    (hs : Session.ofSettings store settings = .ok s) (steps : List (Step α)) :
    let r := (ofSession s).run steps
    ∀ e ∈ r.session.registry.entries,
      (∀ slider, e.toVariable.value = .slider slider → e.content.handle? = none) ∧
      ∀ z, e.toVariable.value = .point z → ∃ h, e.content.handle? = some h ∧
        h.marker = r.session.size.map fun size => r.session.view.toScreen size z := by
  intro r e he
  obtain ⟨-, rfl⟩ := Session.ofSettings_eq_ok_iff.mp hs
  have hplaced : r.session.registry.Placed r.session.view r.session.size :=
    placed_run (Session.placed_begun store settings) steps
  have hcontent := hplaced e he
  obtain ⟨id, name, content⟩ := e
  cases content with
  | slider slider =>
      refine ⟨fun _ _ => rfl, ?_⟩
      intro z hz
      cases hz
  | point w handle =>
      constructor
      · intro slider hslider
        cases hslider
      · rintro z ⟨⟩
        exact ⟨handle, rfl, Content.placeMarker_point_eq_self_iff.mp hcontent⟩

/-- A point is typed before there is a screen, and then the canvas is given a size and moved. -/
theorem run_markers_in_place_panned :
    let s : Session Float MemoryStore := Session.begun ⟨[]⟩ .initial
    let accepting : Compiler := fun _ _ => .accepted
    let steps : List (Step Float) :=
      [⟨accepting, .addPoint "a" ⟨0, 0⟩⟩, ⟨accepting, .editVariable ⟨0⟩ .re "1.5"⟩,
        ⟨accepting, .resize 100 100⟩, ⟨accepting, .pointerDown ⟨50, 50⟩ .primary (.ofMask 0)⟩,
        ⟨accepting, .pointerMove ⟨25, 50⟩ (.ofMask 0)⟩]
    let r := (ofSession s).run steps
    Session.ofSettings ⟨[]⟩ .initial = .ok s ∧
      ∃ e ∈ r.session.registry.entries, e.toVariable.value = .point ⟨1.5, 0⟩ ∧
        ∃ h, e.content.handle? = some h ∧ h.marker = some ⟨50, 50⟩ := by
  intro s accepting steps r
  have hs : Session.ofSettings ⟨[]⟩ .initial = .ok s :=
    Session.ofSettings_eq_ok_iff.mpr ⟨by decide +kernel, rfl⟩
  have hv : r.session.registry.entries.map (fun e => e.toVariable.value) =
      [.point ⟨1.5, 0⟩] := by
    decide +kernel
  obtain ⟨e, he, hz⟩ := List.mem_map.mp (hv ▸ List.mem_singleton_self _)
  obtain ⟨h, hhandle, hmarker⟩ := (run_markers_in_place hs steps e he).2 _ hz
  refine ⟨hs, e, he, hz, h, hhandle, hmarker.trans ?_⟩
  decide +kernel

end Transcript

end PlotPane
