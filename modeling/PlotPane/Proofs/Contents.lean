import PlotPane.Proofs.Markers

/-!
# What holds of every variable

A variable is made in two ways and changed in four. A property that a new variable has and that no
change takes away holds of every variable after every run. It may be a property of the number alone
or of a point together with its handle.
-/

namespace PlotPane

variable {α σ : Type}

namespace Registry

def Every (p : Content α → Prop) (r : Registry α) : Prop :=
  ∀ e ∈ r.entries, p e.content

variable {p : Content α → Prop} {r r' : Registry α} {id : VariableId}

theorem every_empty : (empty : Registry α).Every p :=
  List.forall_mem_nil _

theorem Every.push (h : r.Every p) {name : String} {c : Content α}
    (hpush : r.push name c = some (id, r')) (hc : p c) : r'.Every p := by
  intro e he
  rw [entries_push hpush] at he
  rcases List.mem_append.mp he with hold | hnew
  · exact h e hold
  · rw [List.mem_singleton.mp hnew]
    exact hc

theorem Every.remove (h : r.Every p) {x : Variable α} (hremove : r.remove id = some (x, r')) :
    r'.Every p := by
  obtain ⟨e, -, -, rfl⟩ := remove_eq_some hremove
  exact fun e he => h e (List.mem_of_mem_eraseP he)

theorem Every.update (h : r.Every p) {β : Type} {b : β}
    {f : Entry α → Except VariableError (β × Entry α)}
    (hf : ∀ e e', f e = .ok (b, e') → p e.content → p e'.content)
    (hupdate : r.update id f = .ok (b, r')) : r'.Every p := by
  obtain ⟨i, e, e', -, he, hfe, rfl⟩ := update_eq_ok hupdate
  intro x hx
  rcases List.mem_or_eq_of_mem_set hx with hold | rfl
  · exact h x hold
  · exact hf e x hfe (h e (List.mem_of_getElem? he))

end Registry

variable [Scalar α]

/-- What new variables have and no change of a variable takes away. -/
structure Content.Lasting (p : Content α → Prop) : Prop where
  slider (s : Slider α) : p (.slider s.finiteOrZero)
  point (z : PlanePoint α) : p (.point z.finiteOrZero (.ofPoint z.finiteOrZero))
  placed {c : Content α} (v : View α) (size : Option (ScreenSize α)) (h : p c) :
    p (c.placeMarker v size)
  edited {e e' : Entry α} {field : Field} {text : String} {k : Edit}
    (hedit : e.edit field text = .ok (k, e')) (h : p e.content) : p e'.content
  slid {e e' : Entry α} {raw x : α} (hslide : e.slide raw = .ok (x, e')) (h : p e.content) :
    p e'.content
  moved {e e' : Entry α} {z : PlanePoint α} {v : View α} {size : Option (ScreenSize α)} {u : Unit}
    (hmove : e.setPoint z v size = .ok (u, e')) (h : p e.content) : p e'.content

namespace Registry

variable {p : Content α → Prop} (hp : Content.Lasting p) {r r' : Registry α} {id : VariableId}
  {v : View α} {size : Option (ScreenSize α)}

include hp

theorem Every.placeMarkers (h : r.Every p) (v : View α) (size : Option (ScreenSize α)) :
    (r.placeMarkers v size).Every p := by
  intro e he
  obtain ⟨x, hx, rfl⟩ := List.mem_map.mp he
  exact hp.placed v size (h x hx)

theorem Every.edit (h : r.Every p) {field : Field} {text : String} {k : Edit}
    (hedit : r.edit id field text = .ok (k, r')) : r'.Every p :=
  h.update (fun _ _ => hp.edited) hedit

theorem Relisted.every (h : r.Relisted v size r') (hr : r.Every p) : r'.Every p := by
  cases h with
  | same => exact hr
  | slider h => exact hr.push h (hp.slider _)
  | point h => exact (hr.push h (hp.point _)).placeMarkers hp v size
  | removed h => exact hr.remove h
  | renamed h => exact hr.edit hp h

theorem Revalued.every (h : r.Revalued v size r') (hr : r.Every p) : r'.Every p := by
  cases h with
  | typed h => exact (hr.edit hp h).placeMarkers hp v size
  | slid h => exact hr.update (fun _ _ => hp.slid) h

end Registry

theorem Session.Effect.every {p : Content α → Prop} (hp : Content.Lasting p) {compiler : Compiler}
    {event : Event α} {s s' : Session α σ} {cs : List (Call α)}
    (h : Effect compiler event s s' cs) (hs : s.registry.Every p) : s'.registry.Every p := by
  cases h with
  | looked hsize h => exact hs.placeMarkers hp _ _
  | surfaced h => exact hs.placeMarkers hp _ _
  | ranged h => exact hs.edit hp h
  | revalued h => exact h.every hp hs
  | dragged hsize h hi he => exact hs.update (fun _ _ => hp.moved) h
  | compiled h hc =>
      obtain ⟨error, scheduler, rfl⟩ := hc.eq_with
      exact h.every hp hs
  | _ => exact hs

theorem Transcript.every_run [KeyValueStore σ] {p : Content α → Prop} (hp : Content.Lasting p)
    {r : Transcript α σ} (h : r.session.registry.Every p) (steps : List (Step α)) :
    (r.run steps).session.registry.Every p := by
  refine run_keeps_calls (P := fun s _ => s.registry.Every p) ?_ ?_ ?_ h steps
  · intro s s' log haside hs
    exact haside.registry ▸ hs
  · intro compiler event s s' cs log heffect hs
    exact heffect.every hp hs
  · intro s log hs
    exact hs

end PlotPane
