import PlotPane.Proofs.Panel
import PlotPane.Proofs.Requests

/-!
# The page shows the session

The actions that an event comes to are all that a page needs. One that shows the session before an
event and carries out the actions in the reply shows the session after it, as long as identities are
distinct and markers are in their places. A page that has nothing but an empty list of variables
comes to show the session when the session is started.
-/

namespace PlotPane

variable {α σ : Type}

/-- The action that tells the message of a compilation. -/
def Action.verdict : Option String → Action α
  | none => .compiled
  | some message => .compileFailed message

namespace Panel

/-- The two pages are the same, the message perhaps only if it is `known`. -/
structure Agrees (known : Prop) (p q : Panel α) : Prop where
  rows : p.rows = q.rows
  message : known → p.message = q.message
  theme : p.theme = q.theme

theorem Agrees.refl (known : Prop) (p : Panel α) : p.Agrees known p :=
  ⟨rfl, fun _ => rfl, rfl⟩

theorem Agrees.eq {p q : Panel α} (h : p.Agrees True q) : p = q := by
  obtain ⟨rows, message, theme⟩ := p
  obtain ⟨rfl, hmessage, rfl⟩ := h
  obtain rfl := hmessage trivial
  rfl

variable [Scalar α]

/-- What there is to show of a session. -/
def ofSession (s : Session α σ) : Panel α :=
  ⟨s.registry.rows, s.compileError, s.theme⟩

theorem apply_verdict (p : Panel α) (message : Option String) :
    p.apply (.verdict message) = { p with message := message } := by
  cases message <;> rfl

end Panel

variable [Scalar α]

namespace Turn

/-- The actions so far make the page show the session of the turn. -/
def Shown (known : Prop) (p : Panel α) (t : Turn α σ) : Prop :=
  (p.applyAll t.actions).Agrees known (.ofSession t.session)

variable {known : Prop} {p : Panel α} {s : Session α σ} {t t' : Turn α σ}

theorem shown_ofSession (s : Session α σ) : (ofSession s).Shown known (.ofSession s) :=
  .refl known _

theorem Shown.frame (h : t.Shown known p) (hactions : t'.actions = t.actions)
    (hpanel : Panel.ofSession t'.session = Panel.ofSession t.session) : t'.Shown known p := by
  rw [Shown, hactions, hpanel]
  exact h

theorem Shown.setCursor (h : t.Shown known p) (position : ScreenPoint α) :
    (t.setCursor position).Shown known p :=
  h.frame rfl rfl

theorem shown_of_isLocal (hlocal : ∀ a ∈ t.actions, a.isLocal = true)
    (hrows : p.rows.map (Row.hearAll t.actions) = t.session.registry.rows)
    (hmessage : known → p.message = t.session.compileError) (htheme : p.theme = t.session.theme) :
    t.Shown known p := by
  rw [Shown, Panel.applyAll_of_isLocal hlocal]
  exact ⟨hrows, hmessage, htheme⟩

theorem Shown.hear (h : t.Shown known p) {as : List (Action α)}
    (hactions : t'.actions = t.actions ++ as) (hlocal : ∀ a ∈ as, a.isLocal = true)
    (hpanel : Panel.ofSession t'.session =
      { Panel.ofSession t.session with
        rows := t.session.registry.rows.map (Row.hearAll as) }) : t'.Shown known p := by
  rw [Shown, hactions, Panel.applyAll_append, Panel.applyAll_of_isLocal hlocal, hpanel]
  exact ⟨congrArg (List.map (Row.hearAll as)) h.rows, h.message, h.theme⟩

theorem Shown.tell (h : t.Shown known p) {as : List (Action α)}
    (has : ∀ a ∈ as, a.isLocal = true ∧ a.subject? = none) : (t.tell as).Shown known p := by
  refine h.hear rfl (fun a ha => (has a ha).1) ?_
  rw [Registry.map_hearAll_rows_of_ne]
  · rfl
  · intro a ha id _ hid
    rw [(has a ha).2] at hid
    cases hid

theorem Shown.tellLabel (h : t.Shown known p) : t.tellLabel.Shown known p := by
  apply h.tell
  intro a ha
  obtain ⟨text, -, rfl⟩ := List.mem_map.mp ha
  exact ⟨rfl, rfl⟩

theorem Shown.callSurface (h : t.Shown known p) : t.callSurface.Shown known p := by
  cases hsize : t.session.size with
  | none =>
      rw [callSurface_of_none hsize]
      exact h
  | some size =>
      rw [callSurface_of_some hsize]
      exact h.frame rfl rfl

theorem Shown.viewChanged (h : t.Shown known p) (hordered : t.session.registry.Ordered) :
    t.viewChanged.Shown known p := by
  cases hsize : t.session.size with
  | none =>
      rw [viewChanged_of_none hsize]
      exact h
  | some size =>
      refine h.hear (actions_viewChanged hsize) ?_ ?_
      · intro a ha
        obtain ⟨e, -, ha⟩ := List.mem_flatMap.mp ha
        exact (concerns_markerActions ha).1
      · rw [hordered.map_rows_placeMarkers, (viewChanged_of_some hsize).1]
        rfl

theorem compile_tells (compiler : Compiler) (explicit : Bool) (t : Turn α σ) :
    ∃ message, (t.compile compiler explicit).actions = t.actions ++ [.verdict message] ∧
      Panel.ofSession (t.compile compiler explicit).session =
        { Panel.ofSession t.session with message := message } := by
  rw [Turn.compile]
  cases compiler t.session.source t.session.registry.names with
  | accepted =>
      refine ⟨none, ?_⟩
      cases explicit <;> exact ⟨rfl, rfl⟩
  | rejected message => exact ⟨some _, rfl, rfl⟩

theorem Shown.compile (h : t.Shown known p) (compiler : Compiler) (explicit : Bool) :
    (t.compile compiler explicit).Shown True p := by
  obtain ⟨message, hactions, hpanel⟩ := compile_tells compiler explicit t
  rw [Shown, hactions, hpanel, Panel.applyAll_append]
  -- Whatever message there was before, the verdict takes its place.
  change ((p.applyAll t.actions).apply (.verdict message)).Agrees True _
  rw [Panel.apply_verdict]
  exact ⟨h.rows, fun _ => rfl, h.theme⟩

theorem Shown.resize (h : t.Shown known p) (hordered : t.session.registry.Ordered)
    (width height : α) : (t.resize width height).Shown known p := by
  rw [Turn.resize]
  cases ScreenSize.ofSides width height with
  | error err => exact h
  | ok size =>
      have hsized : (t.update fun s => { s with size := some size }).Shown known p :=
        h.frame rfl rfl
      refine (hsized.callSurface.viewChanged ?_).tellLabel
      exact hordered

theorem Shown.look (h : t.Shown known p) (hordered : t.session.registry.Ordered) (v : View α) :
    (t.update fun s => { s with view := v }).viewChanged.Shown known p :=
  Shown.viewChanged (h.frame rfl rfl) hordered

theorem shown_start (hrows : p.rows = s.registry.rows) (hordered : s.registry.Ordered)
    (compiler : Compiler) (width height : α) :
    ((ofSession s).start compiler width height).Shown True p := by
  let styled := ((ofSession s).call s.style.calls).tell [.themeChanged s.theme]
  -- The theme comes first, and the message is not known before the compilation at the end.
  have hstyled : styled.Shown False p := ⟨hrows, False.elim, rfl⟩
  exact (hstyled.resize hordered width height).compile compiler true

theorem Shown.setResolution (h : t.Shown known p) (hordered : t.session.registry.Ordered)
    (exponent : α) : (t.setResolution exponent).Shown known p := by
  rw [Turn.setResolution]
  cases t.session.view.setResolution (Scalar.exp2 exponent) with
  | error err => exact h
  | ok v =>
      have hviewed : (t.update fun s => { s with view := v }).Shown known p := h.frame rfl rfl
      refine hviewed.callSurface.viewChanged ?_
      rw [session_callSurface]
      exact hordered

theorem Shown.resetView (h : t.Shown known p) (hordered : t.session.registry.Ordered) :
    t.resetView.Shown known p := by
  rw [Turn.resetView]
  cases t.session.view.reset t.session.settings.defaultScale with
  | error err => exact h
  | ok v => exact (h.look hordered v).tellLabel

theorem Shown.pan (h : t.Shown known p) (hordered : t.session.registry.Ordered)
    (delta : ScreenPoint α) : (t.pan delta).Shown known p := by
  rw [Turn.pan]
  cases t.session.size with
  | none => exact h
  | some size =>
      simp only
      cases t.session.view.pan delta size with
      | error err => exact h
      | ok v => exact h.look hordered v

theorem Shown.wheel (h : t.Shown known p) (hordered : t.session.registry.Ordered)
    (position : ScreenPoint α) (delta : WheelDelta α) :
    (t.wheel position delta).Shown known p := by
  have hseen := h.setCursor position
  rw [Turn.wheel]
  cases (t.setCursor position).session.size with
  | none => exact hseen
  | some size =>
      simp only
      cases (t.setCursor position).session.view.zoom position delta.dy
          (t.setCursor position).session.settings.zoomRate size with
      | error err => exact hseen.tellLabel
      | ok u => exact (hseen.look hordered u.2).tellLabel

theorem Shown.pointerDown (h : t.Shown known p) (position : ScreenPoint α) (button : Button) :
    (t.pointerDown position button).Shown known p := by
  rw [Turn.pointerDown]
  split
  · cases (t.setCursor position).session.registry.markerAt position
        (t.setCursor position).session.settings.markerRadius with
    | none => exact h.frame rfl rfl
    | some id => exact h.frame rfl rfl
  · exact h.frame rfl rfl

theorem Shown.keyDown (h : t.Shown known p) (key : Key) (modifiers : Modifiers) :
    (t.keyDown key modifiers).Shown known p := by
  rw [Turn.keyDown]
  split
  · apply h.tell
    intro a ha
    obtain ⟨text, -, rfl⟩ := List.mem_map.mp ha
    exact ⟨rfl, rfl⟩
  · exact h

theorem shown_setTheme [KeyValueStore σ] (s : Session α σ) (theme : Theme) :
    ((ofSession s).setTheme theme).Shown True (.ofSession s) :=
  .refl True _

/-- A new variable is told with all that its row begins with, and then what has become of it. -/
theorem shown_of_added {x : Entry α} (as : List (Action α)) (hfresh : x.id ∉ s.registry.ids)
    (hentries : t.session.registry.entries = s.registry.entries ++ [x])
    (hmessage : t.session.compileError = s.compileError) (htheme : t.session.theme = s.theme)
    (hactions : t.actions = .added x.toVariable :: as) (has : ∀ a ∈ as, a.Concerns x.id)
    (hrow : (Row.ofVariable x.toVariable).hearAll as = .ofEntry x) :
    t.Shown True (.ofSession s) := by
  have hrows : t.session.registry.rows = s.registry.rows ++ [.ofEntry x] := by
    rw [Registry.rows, hentries, List.map_append]
    rfl
  have hsame : s.registry.rows.map (Row.hearAll as) = s.registry.rows := by
    apply Registry.map_hearAll_rows_of_ne
    intro a ha id hid
    rw [(has a ha).2]
    rintro ⟨⟩
    exact hfresh hid
  rw [Shown, hactions]
  change (((Panel.ofSession s).apply (.added x.toVariable)).applyAll as).Agrees True _
  rw [Panel.applyAll_of_isLocal fun a ha => (has a ha).1]
  refine ⟨?_, fun _ => hmessage.symm, htheme.symm⟩
  change (s.registry.rows ++ [Row.ofVariable x.toVariable]).map (Row.hearAll as) =
    t.session.registry.rows
  rw [List.map_append, hsame, List.map_singleton, hrow, hrows]

theorem shown_addSlider (hordered : s.registry.Ordered) (compiler : Compiler) (name : String)
    (x : Slider α) : ((ofSession s).addSlider compiler name x).Shown True (.ofSession s) := by
  rw [addSlider]
  cases hadd : (ofSession s).session.registry.addSlider name x with
  | none => exact shown_ofSession s
  | some u =>
      obtain ⟨id, r⟩ := u
      have hfresh : id ∉ s.registry.ids := hordered.not_mem_ids_of_push hadd
      have hentries := Registry.entries_push hadd
      have hfind := Registry.find?_of_entries_append hfresh hentries
      refine Shown.compile (?_ : Shown True _ _) compiler false
      refine shown_of_added [] hfresh hentries rfl rfl ?_ (List.forall_mem_nil _) rfl
      simp [tellAdded, Turn.tell, update, ofSession, hfind]

theorem shown_addPoint (hordered : s.registry.Ordered)
    (hplaced : s.registry.Placed s.view s.size) (compiler : Compiler) (name : String)
    (z : PlanePoint α) : ((ofSession s).addPoint compiler name z).Shown True (.ofSession s) := by
  rw [addPoint]
  cases hadd : (ofSession s).session.registry.addPoint name z with
  | none => exact shown_ofSession s
  | some u =>
      obtain ⟨id, r⟩ := u
      have hfresh : id ∉ s.registry.ids := hordered.not_mem_ids_of_push hadd
      let h := (PointHandle.ofPoint z.finiteOrZero).placeMarker z.finiteOrZero s.view s.size
      have hentries : (r.placeMarkers s.view s.size).entries =
          s.registry.entries ++ [⟨id, name, .point z.finiteOrZero h⟩] :=
        hplaced.placeMarkers_append (Registry.entries_push hadd)
      have hfind := Registry.find?_of_entries_append hfresh hentries
      refine Shown.compile (?_ : Shown True _ _) compiler false
      refine shown_of_added (markerActions ⟨id, name, .point z.finiteOrZero h⟩) hfresh hentries rfl
        rfl ?_ ?_ ?_
      · simp [tellAdded, tellMarker, Turn.tell, Turn.placeMarkers, update, ofSession, hfind]
      · exact fun a ha => concerns_markerActions ha
      · exact Row.hearAll_markerActions id name z.finiteOrZero h fun _ => rfl

theorem shown_removeVariable (hordered : s.registry.Ordered) (compiler : Compiler)
    (id : VariableId) :
    ((ofSession s).removeVariable compiler id).Shown True (.ofSession s) := by
  rw [removeVariable]
  cases hremove : (ofSession s).session.registry.remove id with
  | none => exact shown_ofSession s
  | some u =>
      refine Shown.compile (?_ : Shown True _ _) compiler false
      exact ⟨hordered.filter_rows hremove, fun _ => rfl, rfl⟩

/-- One variable is changed, perhaps after the page has changed its row, and the actions are about
this variable. -/
theorem shown_of_replaced {id : VariableId} {e e' : Entry α} {g : Row α → Row α}
    (as : List (Action α)) (hordered : s.registry.Ordered)
    (hreplaced : s.registry.Replaced id e e' t.session.registry)
    (hmessage : t.session.compileError = s.compileError) (htheme : t.session.theme = s.theme)
    (hactions : t.actions = as) (has : ∀ a ∈ as, a.Concerns id)
    (hg : ∀ row, row.id ≠ id → g row = row) (hrow : (g (.ofEntry e)).hearAll as = .ofEntry e') :
    t.Shown True { Panel.ofSession s with rows := s.registry.rows.map g } := by
  subst hactions
  refine shown_of_isLocal (fun a ha => (has a ha).1) ?_ (fun _ => hmessage.symm) htheme.symm
  rw [List.map_map]
  apply hordered.map_rows hreplaced hrow
  intro row hne
  rw [Function.comp_apply, hg row hne]
  apply Row.hearAll_of_ne
  intro a ha
  rw [(has a ha).2]
  rintro ⟨⟩
  exact hne rfl

theorem shown_of_told {id : VariableId} {e e' : Entry α} (as : List (Action α))
    (hordered : s.registry.Ordered) (hreplaced : s.registry.Replaced id e e' t.session.registry)
    (hmessage : t.session.compileError = s.compileError) (htheme : t.session.theme = s.theme)
    (hactions : t.actions = as) (has : ∀ a ∈ as, a.Concerns id)
    (hrow : (Row.ofEntry e).hearAll as = .ofEntry e') : t.Shown True (.ofSession s) := by
  have hshown := shown_of_replaced (g := fun row => row) as hordered hreplaced hmessage htheme
    hactions has (fun _ _ => rfl) hrow
  rw [List.map_id'] at hshown
  exact hshown

theorem shown_editVariable (hordered : s.registry.Ordered)
    (hplaced : s.registry.Placed s.view s.size) {compiler : Compiler} {id : VariableId}
    {field : Field} {text : String}
    (h : (ofSession s).editVariable compiler id field text = .ok t) :
    t.Shown True ((Panel.ofSession s).typed (.editVariable id field text)) := by
  obtain ⟨⟨kind, r⟩, hedit, rfl⟩ := map_eq_ok_iff.mp h
  obtain ⟨e, e', he, hreplaced⟩ :=
    hordered.replaced_of_update (fun _ _ he => (Entry.edit_eq_ok he).1) hedit
  have hother (row : Row α) (hne : row.id ≠ id) :
      (if row.id = id then row.setField field text else row) = row := if_neg hne
  have hself : (if (Row.ofEntry e).id = id then (Row.ofEntry e).setField field text
      else .ofEntry e) = (Row.ofEntry e).setField field text :=
    if_pos (Registry.id_of_find? hreplaced.before)
  cases kind with
  | name =>
      refine Shown.compile (?_ : Shown True _ _) compiler false
      refine shown_of_replaced [] hordered hreplaced rfl rfl rfl (List.forall_mem_nil _) hother ?_
      rw [hself]
      exact Row.setField_of_renamed he
  | value =>
      let placed : Entry α := { e' with content := e'.content.placeMarker s.view s.size }
      have hreplaced' : s.registry.Replaced id e placed (r.placeMarkers s.view s.size) :=
        hplaced.replaced_placeMarkers hreplaced
      refine shown_of_replaced (markerActions placed ++ sliderActions placed) hordered hreplaced'
        rfl rfl ?_ ?_ hother ?_
      · simp [requestRedraw, draw, call, callSlots, tellSlider, tellMarker, Turn.tell,
          Turn.placeMarkers, update, ofSession, hreplaced'.after]
      · intro a ha
        rw [← Registry.id_of_find? hreplaced'.after]
        rcases List.mem_append.mp ha with hmarker | hslider
        · exact concerns_markerActions hmarker
        · exact concerns_sliderActions hslider
      · rw [hself]
        have hmem := List.mem_of_find?_eq_some hreplaced.before
        exact Row.hearAll_setField_of_revalued he (hplaced e hmem)
  | range =>
      refine shown_of_replaced (sliderActions e') hordered hreplaced rfl rfl ?_ ?_ hother ?_
      · simp [tellSlider, Turn.tell, update, ofSession, hreplaced.after]
      · intro a ha
        rw [← Registry.id_of_find? hreplaced.after]
        exact concerns_sliderActions ha
      · rw [hself]
        exact Row.hearAll_setField_of_ranged he

theorem shown_slideVariable (hordered : s.registry.Ordered) {id : VariableId} {raw : α}
    (h : (ofSession s).slideVariable id raw = .ok t) : t.Shown True (.ofSession s) := by
  obtain ⟨⟨x, r⟩, hslide, rfl⟩ := map_eq_ok_iff.mp h
  obtain ⟨e, e', he, hreplaced⟩ :=
    hordered.replaced_of_update (fun _ _ he => (Entry.slide_eq_ok he).1) hslide
  refine shown_of_told (sliderActions e') hordered hreplaced rfl rfl ?_ ?_
    (Row.hearAll_of_slid he)
  · simp [requestRedraw, draw, call, callSlots, tellSlider, Turn.tell, update, ofSession,
      hreplaced.after]
  · intro a ha
    rw [← Registry.id_of_find? hreplaced.after]
    exact concerns_sliderActions ha

theorem shown_dragPoint (hordered : s.registry.Ordered) (id : VariableId)
    (position : ScreenPoint α) :
    ((ofSession s).dragPoint id position).Shown True (.ofSession s) := by
  cases hsize : s.size with
  | none =>
      rw [dragPoint_of_none (t := ofSession s) hsize]
      exact shown_ofSession s
  | some size =>
      cases hset : s.registry.setPoint id (s.view.toPlane size position) s.view (some size) with
      | error err =>
          rw [dragPoint_of_error (t := ofSession s) hsize hset]
          exact (shown_ofSession s).frame rfl rfl
      | ok u =>
          obtain ⟨i, -, hi, -, -⟩ := Registry.slots_setPoint hset
          obtain ⟨e, e', he, hreplaced⟩ :=
            hordered.replaced_of_update (fun _ _ he => (Entry.setPoint_eq_ok he).1) hset
          rw [dragPoint_of_ok (t := ofSession s) hsize hset hi hreplaced.after]
          refine shown_of_told _ hordered hreplaced rfl rfl (List.nil_append _) ?_ ?_
          · intro a ha
            rcases List.mem_append.mp ha with hfields | hmarker
            · obtain ⟨h, -, rfl⟩ := List.mem_map.mp hfields
              exact ⟨rfl, rfl⟩
            · rw [← Registry.id_of_find? hreplaced.after]
              exact concerns_markerActions hmarker
          · have hrow := Row.hearAll_of_dragged he
            rw [Registry.id_of_find? hreplaced.before] at hrow
            exact hrow

theorem shown_pointerMove (hordered : s.registry.Ordered) (position : ScreenPoint α) :
    ((ofSession s).pointerMove position).Shown True (.ofSession s) := by
  cases hdrag : (ofSession s).session.drag with
  | idle =>
      rw [pointerMove_of_idle hdrag]
      exact ((shown_ofSession s).setCursor position).tellLabel
  | panning last =>
      rw [pointerMove_of_panning hdrag]
      have hmoved : ((ofSession s).setDrag (.panning position)).Shown True (.ofSession s) :=
        (shown_ofSession s).frame rfl rfl
      exact ((hmoved.pan hordered _).setCursor position).tellLabel
  | point id =>
      rw [pointerMove_of_point hdrag]
      exact ((shown_dragPoint hordered id position).setCursor position).tellLabel

end Turn

/-- A page that hears the answer to an event shows the session after it. -/
def Answer.Shown (p : Panel α) (e : Event α) (a : Answer α σ) : Prop :=
  p.hear e a.reply = .ofSession a.session

theorem Turn.Shown.answer {p : Panel α} {e : Event α} {t : Turn α σ}
    (h : t.Shown True (p.typed e)) : t.answer.Shown p e :=
  h.eq

namespace Session

variable [KeyValueStore σ]

theorem shown_start {s : Session α σ} {p : Panel α} (hordered : s.registry.Ordered)
    (hrows : p.rows = s.registry.rows) (compiler : Compiler) (width height : α) :
    (s.handle compiler (.start width height)).Shown p (.start width height) :=
  Turn.Shown.answer (Turn.shown_start hrows hordered compiler width height)

theorem shown_handle {s : Session α σ} (hordered : s.registry.Ordered)
    (hplaced : s.registry.Placed s.view s.size) (compiler : Compiler) (e : Event α) :
    (s.handle compiler e).Shown (.ofSession s) e := by
  have hs : (Turn.ofSession s).Shown True (.ofSession s) := Turn.shown_ofSession s
  cases e with
  | start width height => exact shown_start hordered rfl compiler width height
  | resize width height => exact Turn.Shown.answer (hs.resize hordered width height)
  | setResolution exponent => exact Turn.Shown.answer (hs.setResolution hordered exponent)
  | resetView => exact Turn.Shown.answer (hs.resetView hordered)
  | pointerDown position button modifiers =>
      exact Turn.Shown.answer (hs.pointerDown position button)
  | pointerMove position modifiers =>
      exact Turn.Shown.answer (Turn.shown_pointerMove hordered position)
  | pointerUp position button modifiers =>
      exact Turn.Shown.answer (hs.frame rfl rfl)
  | pointerLeave => exact Turn.Shown.answer (hs.frame rfl rfl)
  | wheel position delta modifiers => exact Turn.Shown.answer (hs.wheel hordered position delta)
  | keyDown key modifiers => exact Turn.Shown.answer (hs.keyDown key modifiers)
  | graph => exact Turn.Shown.answer (hs.compile compiler true)
  | setTheme theme => exact Turn.Shown.answer (Turn.shown_setTheme s theme)
  | toggleTheme => exact Turn.Shown.answer (Turn.shown_setTheme s s.theme.toggled)
  | addSlider name x => exact Turn.Shown.answer (Turn.shown_addSlider hordered compiler name x)
  | addPoint name z =>
      exact Turn.Shown.answer (Turn.shown_addPoint hordered hplaced compiler name z)
  | removeVariable id => exact Turn.Shown.answer (Turn.shown_removeVariable hordered compiler id)
  | editVariable id field text =>
      rw [handle]
      cases ht : (Turn.ofSession s).editVariable compiler id field text with
      | error err => exact Eq.refl _
      | ok t => exact Turn.Shown.answer (Turn.shown_editVariable hordered hplaced ht)
  | slideVariable id raw =>
      rw [handle]
      cases ht : (Turn.ofSession s).slideVariable id raw with
      | error err => exact Eq.refl _
      | ok t => exact Turn.Shown.answer (Turn.shown_slideVariable hordered ht)
  | setSource source =>
      rw [handle, setSource]
      split <;> exact Eq.refl _
  | _ => exact Eq.refl _

end Session

namespace Transcript

variable [KeyValueStore σ]

/-- What a page shows after events, if it hears the answers one after the other. -/
def panel (r : Transcript α σ) (p : Panel α) : List (Step α) → Panel α
  | [] => p
  | x :: xs => (r.step x).panel (p.hear x.event (r.session.handle x.compiler x.event).reply) xs

theorem panel_cons {r : Transcript α σ} {p : Panel α} {x : Step α}
    (h : (r.session.handle x.compiler x.event).Shown p x.event) (xs : List (Step α)) :
    r.panel p (x :: xs) = (r.step x).panel (.ofSession (r.step x).session) xs := by
  rw [panel, h]
  rfl

theorem panel_run {r : Transcript α σ} {n : Nat} (hcounted : r.session.registry.Counted n)
    (hplaced : r.session.registry.Placed r.session.view r.session.size) (steps : List (Step α))
    (hadds : n + r.additions steps < UInt32.size) :
    r.panel (.ofSession r.session) steps = .ofSession (r.run steps).session := by
  induction steps generalizing r n with
  | nil => rfl
  | cons x xs ih =>
      have hordered := hcounted.ordered (by omega)
      have hshown := Session.shown_handle hordered hplaced x.compiler x.event
      have hcounted' : (r.step x).session.registry.Counted _ :=
        r.session.counted_handle x.compiler x.event hcounted
      rw [additions, ← Nat.add_assoc] at hadds
      rw [panel_cons hshown]
      exact ih hcounted' (placed_run hplaced [x]) hadds

end Transcript

end PlotPane
