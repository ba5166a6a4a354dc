import PlotPane.Proofs.Finiteness
import PlotPane.Proofs.ReadBack
import PlotPane.Proofs.Refusals

/-!
# The texts of a point show its number

A typed text is kept as it is and its number is read off it. A point that is added or dragged has
its number first, and both texts are written from it. Either way each text reads as a number that
compares equal to its part of the point, whatever was typed and dragged before. So a text that is
submitted as it stands changes nothing.
-/

namespace PlotPane

variable {α σ : Type}

/-- The field that a part of a point is typed into. -/
def Part.field : Part → Field
  | .re => .re
  | .im => .im

namespace PlanePoint

def part (z : PlanePoint α) : Part → α
  | .re => z.re
  | .im => z.im

def setPart (z : PlanePoint α) (part : Part) (x : α) : PlanePoint α :=
  match part with
  | .re => { z with re := x }
  | .im => { z with im := x }

theorem part_setPart (z : PlanePoint α) (part other : Part) (x : α) :
    (z.setPart part x).part other = if other = part then x else z.part other := by
  cases part <;> cases other <;> rfl

end PlanePoint

namespace PointHandle

/-- The text that is shown for a part of a point. -/
def text (h : PointHandle α) : Part → String
  | .re => h.reText
  | .im => h.imText

theorem text_setText (h : PointHandle α) (part other : Part) (typed : String) :
    (h.setText part typed).text other = if other = part then typed else h.text other := by
  cases part <;> cases other <;> rfl

theorem setText_text (h : PointHandle α) (part : Part) : h.setText part (h.text part) = h := by
  cases part <;> rfl

theorem text_placeMarker [Scalar α] (h : PointHandle α) (z : PlanePoint α) (v : View α)
    (size : Option (ScreenSize α)) (part : Part) :
    (h.placeMarker z v size).text part = h.text part := by
  cases part <;> rfl

/-- Each text reads as a number that compares equal to its part of the point. -/
def Shows (h : PointHandle Float) (z : PlanePoint Float) : Prop :=
  ∀ part, (Scalar.ofText (h.text part) == z.part part) = true

variable {h : PointHandle Float} {z : PlanePoint Float}

theorem shows_of_fieldTexts (htext : ∀ part, h.text part = Scalar.fieldText (z.part part))
    (hz : ∀ part, (z.part part).isFinite = true) : h.Shows z := by
  intro part
  rw [htext]
  exact Double.ofText_fieldText (hz part)

theorem Shows.placeMarker (hshows : h.Shows z) (v : View Float)
    (size : Option (ScreenSize Float)) : (h.placeMarker z v size).Shows z := by
  intro part
  rw [text_placeMarker]
  exact hshows part

/-- A text is kept with the number that it reads as, and the other part stays. -/
theorem Shows.setText (hshows : h.Shows z) (part : Part) (typed : String) :
    (h.setText part typed).Shows (z.setPart part (Scalar.ofText typed)) := by
  intro other
  rw [text_setText, PlanePoint.part_setPart]
  split
  · exact Double.beq_self (Double.isFinite_ofText typed)
  · exact hshows other

theorem Shows.beq_self (hshows : h.Shows z) (part : Part) :
    (z.part part == z.part part) = true :=
  Float.beq_self_iff.mpr (Float.beq_iff_ne_nan_and_eq.mp (hshows part)).2.1

/-- The number read off a text that is shown takes the place of its part without a difference. -/
theorem Shows.beq_setPart (hshows : h.Shows z) (part other : Part) :
    ((z.setPart part (Scalar.ofText (h.text part))).part other == z.part other) = true := by
  rw [PlanePoint.part_setPart]
  split
  · rename_i heq
    rw [heq]
    exact hshows part
  · exact hshows.beq_self other

end PointHandle

theorem PlanePoint.isFinite_part (z : PlanePoint Float) (part : Part) :
    (z.finiteOrZero.part part).isFinite = true := by
  cases part with
  | re => exact z.isFinite_finiteOrZero.re
  | im => exact z.isFinite_finiteOrZero.im

def Content.Shown : Content Float → Prop
  | .slider _ => True
  | .point z h => h.Shows z

namespace Entry

theorem edit_part [Scalar α] (id : VariableId) (name : String) (z : PlanePoint α)
    (h : PointHandle α) (part : Part) (typed : String) :
    (⟨id, name, .point z h⟩ : Entry α).edit part.field typed =
      .ok (.value, ⟨id, name, .point (z.setPart part (Scalar.ofText typed))
        (h.setText part typed)⟩) := by
  cases part <;> rfl

theorem shown_edit {e e' : Entry Float} {field : Field} {typed : String} {k : Edit}
    (h : e.edit field typed = .ok (k, e')) (he : e.content.Shown) : e'.content.Shown := by
  cases edited_of_edit h with
  | name => exact he
  | value => trivial
  | min => trivial
  | max => trivial
  | step => trivial
  | re id name z handle => exact PointHandle.Shows.setText he .re typed
  | im id name z handle => exact PointHandle.Shows.setText he .im typed

end Entry

theorem Content.lasting_shown : Lasting Content.Shown where
  slider s := trivial
  point z := PointHandle.shows_of_fieldTexts (fun part => by cases part <;> rfl) z.isFinite_part
  placed {c} v size h := by
    cases c with
    | slider s => trivial
    | point z handle => exact PointHandle.Shows.placeMarker h v size
  edited hedit h := Entry.shown_edit hedit h
  slid hslide _ := by
    obtain ⟨id, name, s, -, -, rfl⟩ := Entry.slid_of_slide hslide
    trivial
  moved {e e' z v size u} hmove _ := by
    obtain ⟨id, name, w, handle, -, rfl⟩ := Entry.moved_of_setPoint hmove
    exact PointHandle.shows_of_fieldTexts (fun part => by cases part <;> rfl) z.isFinite_part

section

variable [Scalar α]

theorem Registry.find?_placeMarkers (r : Registry α) (v : View α) (size : Option (ScreenSize α))
    (id : VariableId) :
    (r.placeMarkers v size).find? id =
      (r.find? id).map fun e => { e with content := e.content.placeMarker v size } :=
  List.find?_map

theorem Session.handle_edit_value [KeyValueStore σ] {s : Session α σ} (compiler : Compiler)
    {id : VariableId} {field : Field} {text : String} {r : Registry α}
    (h : s.registry.edit id field text = .ok (.value, r)) :
    (s.handle compiler (.editVariable id field text)).session.registry =
      r.placeMarkers s.view s.size := by
  have hturn : (Turn.ofSession s).session.registry.edit id field text = .ok (.value, r) := h
  rw [handle, Turn.editVariable, hturn]
  rfl

end

namespace Session

variable [KeyValueStore σ]

theorem resubmitted_text {s : Session Float σ} {id : VariableId} {name : String}
    {z : PlanePoint Float} {h : PointHandle Float} (hshows : h.Shows z)
    (hfind : s.registry.find? id = some ⟨id, name, .point z h⟩) (compiler : Compiler)
    (part : Part) :
    let a := s.handle compiler (.editVariable id part.field (h.text part))
    (∀ err, a.reply ≠ .refused err) ∧
      ∃ z' h', a.session.registry.find? id = some ⟨id, name, .point z' h'⟩ ∧
        ∀ other, (z'.part other == z.part other) = true ∧ h'.text other = h.text other := by
  intro a
  have hedit := Entry.edit_part id name z h part (h.text part)
  rw [PointHandle.setText_text] at hedit
  obtain ⟨r, hr⟩ : ∃ r, s.registry.edit id part.field (h.text part) = .ok (.value, r) :=
    Registry.update_of_find hfind hedit
  obtain ⟨i, e, e', he, he', -, hfind', -⟩ :=
    Registry.located_update (fun _ _ h => (Entry.edit_eq_ok h).1) hr
  -- The entry that is found is the one that was edited.
  rw [hfind] at he
  obtain rfl := Option.some.inj he
  rw [hedit] at he'
  obtain ⟨-, rfl⟩ := Prod.mk.inj (Except.ok.inj he')
  constructor
  · intro err hrefused
    have herror := (reply_editVariable compiler).mp hrefused
    cases herror.symm.trans hr
  · let z' := z.setPart part (Scalar.ofText (h.text part))
    refine ⟨z', h.placeMarker z' s.view s.size, ?_, ?_⟩
    · rw [handle_edit_value compiler hr, Registry.find?_placeMarkers, hfind']
      rfl
    · intro other
      exact ⟨hshows.beq_setPart part other, h.text_placeMarker z' _ _ other⟩

end Session

namespace Transcript

variable [KeyValueStore σ]

/-- Whatever is typed into the fields of a point and wherever it is dragged, after every event both
texts read as numbers that compare equal to the two parts of the point. A text that is then
submitted as it stands is taken, stays as it is and leaves both parts numerically unchanged. -/
theorem run_texts_show_points {store : σ} {settings : Settings Float} {s : Session Float σ}
    (hs : Session.ofSettings store settings = .ok s) (steps : List (Step Float)) :
    let r := (ofSession s).run steps
    (∀ e ∈ r.session.registry.entries, ∀ z h, e.content = .point z h →
      ∀ part, (Scalar.ofText (h.text part) == z.part part) = true) ∧
    ∀ compiler id name z h part, r.session.registry.find? id = some ⟨id, name, .point z h⟩ →
      let a := r.session.handle compiler (.editVariable id part.field (h.text part))
      (∀ err, a.reply ≠ .refused err) ∧
        ∃ z' h', a.session.registry.find? id = some ⟨id, name, .point z' h'⟩ ∧
          ∀ other, (z'.part other == z.part other) = true ∧ h'.text other = h.text other := by
  intro r
  obtain ⟨-, rfl⟩ := Session.ofSettings_eq_ok_iff.mp hs
  have hr : r.session.registry.Every Content.Shown :=
    every_run Content.lasting_shown Registry.every_empty steps
  have hshows {e : Entry Float} (he : e ∈ r.session.registry.entries) {z : PlanePoint Float}
      {h : PointHandle Float} (hcontent : e.content = .point z h) : h.Shows z := by
    have hshown := hr e he
    rwa [hcontent] at hshown
  refine ⟨?_, ?_⟩
  · intro e he z h hcontent
    exact hshows he hcontent
  · intro compiler id name z h part hfind
    have hmem : (⟨id, name, .point z h⟩ : Entry Float) ∈ r.session.registry.entries :=
      List.mem_of_find?_eq_some hfind
    exact Session.resubmitted_text (hshows hmem rfl) hfind compiler part

/-- A point with a negative zero and an infinite part gets a typed part, another point is dragged
and then given a text that does not parse as a number. The text of the zero, submitted again, is
that of a zero with the other sign. -/
theorem run_texts_show_points_typed :
    let s : Session Float MemoryStore := Session.begun ⟨[]⟩ .initial
    let accepting : Compiler := fun _ _ => .accepted
    let steps : List (Step Float) :=
      [⟨accepting, .resize 100 100⟩, ⟨accepting, .addPoint "a" ⟨-0.0, 1 / 0⟩⟩,
        ⟨accepting, .addPoint "b" ⟨1, 0.1⟩⟩, ⟨accepting, .editVariable ⟨0⟩ .im " 5e-1 "⟩,
        ⟨accepting, .pointerDown ⟨67, 48⟩ .primary (.ofMask 0)⟩,
        ⟨accepting, .pointerMove ⟨75, 37⟩ (.ofMask 0)⟩,
        ⟨accepting, .editVariable ⟨1⟩ .re "none"⟩]
    let r := (ofSession s).run steps
    let z : PlanePoint Float := ⟨-0.0, 0.5⟩
    let h : PointHandle Float := ⟨"0", " 5e-1 ", some ⟨50, 41.66666666666667⟩⟩
    let w : PlanePoint Float := ⟨0, 0.78⟩
    let k : PointHandle Float := ⟨"none", "0.78", some ⟨50, 37⟩⟩
    let a := r.session.handle accepting (.editVariable ⟨0⟩ Part.re.field (h.text .re))
    Session.ofSettings ⟨[]⟩ .initial = .ok s ∧
      r.session.registry.entries = [⟨⟨0⟩, "a", .point z h⟩, ⟨⟨1⟩, "b", .point w k⟩] ∧
      (∀ part, (Scalar.ofText (h.text part) == z.part part) = true) ∧
      (∀ part, (Scalar.ofText (k.text part) == w.part part) = true) ∧
      (∀ err, a.reply ≠ .refused err) ∧
        ∃ z' h', a.session.registry.find? ⟨0⟩ = some ⟨⟨0⟩, "a", .point z' h'⟩ ∧
          ∀ other, (z'.part other == z.part other) = true ∧ h'.text other = h.text other := by
  intro s accepting steps r z h w k a
  have hs : Session.ofSettings ⟨[]⟩ .initial = .ok s :=
    Session.ofSettings_eq_ok_iff.mpr ⟨by decide +kernel, rfl⟩
  have hentries : r.session.registry.entries =
      [⟨⟨0⟩, "a", .point z h⟩, ⟨⟨1⟩, "b", .point w k⟩] := by
    decide +kernel
  have hfind : r.session.registry.find? ⟨0⟩ = some ⟨⟨0⟩, "a", .point z h⟩ := by
    rw [Registry.find?, hentries]
    rfl
  have hfirst : ⟨⟨0⟩, "a", .point z h⟩ ∈ r.session.registry.entries := by
    rw [hentries]
    exact List.mem_cons_self
  have hsecond : ⟨⟨1⟩, "b", .point w k⟩ ∈ r.session.registry.entries := by
    rw [hentries]
    exact List.mem_cons_of_mem _ List.mem_cons_self
  clear_value s steps z h w k
  obtain ⟨hshows, hresubmit⟩ := run_texts_show_points hs steps
  exact ⟨hs, hentries, hshows _ hfirst z h rfl, hshows _ hsecond w k rfl,
    hresubmit accepting ⟨0⟩ "a" z h .re hfind⟩

end Transcript

end PlotPane
