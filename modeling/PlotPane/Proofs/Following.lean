import PlotPane.Proofs.ExactViews
import PlotPane.Proofs.Gestures

/-!
# What is grabbed stays under the pointer

While the background is held, moves of the pointer pan the view and the wheel zooms it about the
pointer. In exact numbers neither changes which point of the plane is drawn under the pointer: a pan
because the plane follows it, a zoom because the point under it is the fixed one. So, through every
mixture of the two, the point that was grabbed is still there.
-/

namespace PlotPane

variable {α σ : Type}

/-- What the pointer can do while it holds the background. -/
inductive Motion (α : Type) where
  | move (position : ScreenPoint α) (modifiers : Modifiers)
  /-- The wheel turns where the pointer is. -/
  | wheel (delta : WheelDelta α) (modifiers : Modifiers)
  deriving DecidableEq, Repr

namespace Motion

/-- Where the pointer is after a motion that finds it at `p`. -/
def endpoint (p : ScreenPoint α) : Motion α → ScreenPoint α
  | .move position _ => position
  | .wheel _ _ => p

def event (p : ScreenPoint α) : Motion α → Event α
  | .move position modifiers => .pointerMove position modifiers
  | .wheel delta modifiers => .wheel p delta modifiers

def endpoints (p : ScreenPoint α) (motions : List (Motion α)) : ScreenPoint α :=
  motions.foldl endpoint p

/-- The motions as a session sees them, from a pointer at `p` on. -/
def steps (compiler : Compiler) : ScreenPoint α → List (Motion α) → List (Step α)
  | _, [] => []
  | p, m :: ms => ⟨compiler, m.event p⟩ :: steps compiler (m.endpoint p) ms

/-- The scale of the view after a motion. -/
def rescale [Scalar α] (rate : α) (scale : α) : Motion α → α
  | .move _ _ => scale
  | .wheel delta _ => scale * Scalar.exp (delta.dy * rate)

end Motion

namespace ScreenSize

variable [Scalar α]

/-- On this screen a view can always follow a pointer and zoom about one, and either way the plane
point under the pointer stays the same. -/
structure Anchors (size : ScreenSize α) : Prop where
  usable_pan : ∀ (v : View α) delta, v.Usable → (v.aim (.pan delta size)).Usable
  usable_zoom : ∀ (v : View α) p amount rate, v.Usable → (v.aim (.zoom p amount rate size)).Usable
  toPlane_pan : ∀ (v : View α) (p q : ScreenPoint α),
    (v.aim (.pan ⟨q.x - p.x, q.y - p.y⟩ size)).toPlane size q = v.toPlane size p
  toPlane_zoom : ∀ (v : View α) p amount rate,
    (v.aim (.zoom p amount rate size)).toPlane size p = v.toPlane size p

end ScreenSize

namespace Turn

variable [Scalar α]

theorem wheel_of_ok {t : Turn α σ} {position : ScreenPoint α} {delta : WheelDelta α}
    {size : ScreenSize α} {factor : α} {v : View α} (hsize : t.session.size = some size)
    (hzoom : t.session.view.zoom position delta.dy t.session.settings.zoomRate size =
      .ok (factor, v)) :
    t.wheel position delta =
      ((t.setCursor position).update fun s => { s with view := v }).viewChanged.tellLabel := by
  have hseen : (t.setCursor position).session = { t.session with cursor := some position } := rfl
  simp only [wheel, hseen, hsize, hzoom]

end Turn

namespace Session

variable [Scalar α] {s : Session α σ} {size : ScreenSize α} {p : ScreenPoint α} {z : PlanePoint α}

/-- The pointer at `p` holds the background on a screen, with the plane point `z` under it. -/
structure Holds (s : Session α σ) (size : ScreenSize α) (p : ScreenPoint α) (z : PlanePoint α) :
    Prop where
  sized : s.size = some size
  usable : s.view.Usable
  drag : s.drag = .panning p
  under : s.view.toPlane size p = z

variable [KeyValueStore σ] (compiler : Compiler) (modifiers : Modifiers)

theorem holds_pointerDown (hsize : s.size = some size) (hview : s.view.Usable)
    (hoff : s.registry.markerAt p s.settings.markerRadius = none) :
    let a := s.handle compiler (.pointerDown p .primary modifiers)
    a.session.Holds size p (s.view.toPlane size p) ∧ a.session.view = s.view := by
  intro a
  have hpointed : s.Pointed (.pointerDown p .primary modifiers) a.session a.calls :=
    s.pointed_handle compiler rfl
  generalize a.session = s', a.calls = cs at hpointed
  cases hpointed with
  | pressed h => exact absurd rfl h
  | grabbed h => cases hoff.symm.trans h
  | held h => exact ⟨⟨hsize, hview, rfl, rfl⟩, rfl⟩

theorem Holds.pointerMove (hsize : size.Anchors) (h : s.Holds size p z) (q : ScreenPoint α)
    (hzero : Scalar.isFinite (0.0 : α) = true) :
    let a := s.handle compiler (.pointerMove q modifiers)
    a.session.Holds size q z ∧ a.session.view.scale = s.view.scale := by
  intro a
  have husable := hsize.usable_pan s.view ⟨q.x - p.x, q.y - p.y⟩ h.usable
  have hpan : s.view.pan ⟨q.x - p.x, q.y - p.y⟩ size =
      .ok (s.view.aim (.pan ⟨q.x - p.x, q.y - p.y⟩ size)) :=
    (View.attempt_eq_ok_iff hzero h.usable (.pan _ size)).mpr ⟨rfl, husable⟩
  have hpointed : s.Pointed (.pointerMove q modifiers) a.session a.calls :=
    s.pointed_handle compiler rfl
  generalize a.session = s', a.calls = cs at hpointed
  cases hpointed with
  | stuck hdrag hstuck =>
      obtain rfl := Drag.panning.inj (h.drag.symm.trans hdrag)
      obtain ⟨err, herr⟩ := hstuck size h.sized
      cases hpan.symm.trans herr
  | panned hdrag hsized hv =>
      obtain rfl := Drag.panning.inj (h.drag.symm.trans hdrag)
      obtain rfl := Option.some.inj (h.sized.symm.trans hsized)
      obtain rfl := Except.ok.inj (hpan.symm.trans hv)
      exact ⟨⟨h.sized, husable, rfl, (hsize.toPlane_pan s.view _ q).trans h.under⟩, rfl⟩
  | hovered hdrag => cases h.drag.symm.trans hdrag
  | missed hdrag hm => cases h.drag.symm.trans hdrag
  | dragged hdrag hsized hset hi he => cases h.drag.symm.trans hdrag

theorem session_wheel_of_ok {delta : WheelDelta α} {factor : α} {v : View α}
    (hsize : s.size = some size)
    (hzoom : s.view.zoom p delta.dy s.settings.zoomRate size = .ok (factor, v)) :
    (s.handle compiler (.wheel p delta modifiers)).session =
      { s with
        cursor := some p
        view := v
        registry := s.registry.placeMarkers v (some size)
        scheduler := s.scheduler.request.2 } := by
  let zoomed := ((Turn.ofSession s).setCursor p).update fun s => { s with view := v }
  have hwheel : (Turn.ofSession s).wheel p delta = zoomed.viewChanged.tellLabel :=
    Turn.wheel_of_ok hsize hzoom
  rw [handle, hwheel]
  exact (Turn.viewChanged_of_some (t := zoomed) hsize).1

theorem Holds.wheel (hsize : size.Anchors) (h : s.Holds size p z) (delta : WheelDelta α)
    (hzero : Scalar.isFinite (0.0 : α) = true) :
    let a := s.handle compiler (.wheel p delta modifiers)
    a.session.Holds size p z ∧
      a.session.view.scale = s.view.scale * Scalar.exp (delta.dy * s.settings.zoomRate) := by
  intro a
  have husable := hsize.usable_zoom s.view p delta.dy s.settings.zoomRate h.usable
  have hattempt := (View.attempt_eq_ok_iff hzero h.usable
    (.zoom p delta.dy s.settings.zoomRate size)).mpr ⟨rfl, husable⟩
  obtain ⟨⟨factor, v⟩, hzoom, hv⟩ := map_eq_ok_iff.mp hattempt
  have ha : a.session = _ := session_wheel_of_ok compiler modifiers h.sized hzoom
  rw [← hv] at husable
  rw [ha]
  refine ⟨⟨h.sized, husable, h.drag, ?_⟩, congrArg View.scale hv⟩
  calc
    v.toPlane size p = s.view.toPlane size p := by
      rw [show v = _ from hv]
      exact hsize.toPlane_zoom s.view p delta.dy s.settings.zoomRate
    _ = z := h.under

/-- A motion of the pointer that holds the background. -/
theorem Holds.motion (hsize : size.Anchors) (h : s.Holds size p z) (m : Motion α)
    (hzero : Scalar.isFinite (0.0 : α) = true) :
    let a := s.handle compiler (m.event p)
    a.session.Holds size (m.endpoint p) z ∧
      a.session.view.scale = m.rescale s.settings.zoomRate s.view.scale := by
  cases m with
  | move q modifiers => exact h.pointerMove compiler modifiers hsize q hzero
  | wheel delta modifiers => exact h.wheel compiler modifiers hsize delta hzero

end Session

namespace Transcript

variable [Scalar α] [KeyValueStore σ]

theorem holds_run {size : ScreenSize α} {p : ScreenPoint α} {z : PlanePoint α}
    (hsize : size.Anchors) (hzero : Scalar.isFinite (0.0 : α) = true) {r : Transcript α σ}
    (h : r.session.Holds size p z) (compiler : Compiler) (motions : List (Motion α)) :
    let t := r.run (Motion.steps compiler p motions)
    t.session.Holds size (Motion.endpoints p motions) z ∧
      t.session.view.scale =
        motions.foldl (Motion.rescale r.session.settings.zoomRate) r.session.view.scale := by
  induction motions generalizing r p with
  | nil => exact ⟨h, rfl⟩
  | cons m ms ih =>
      let x : Step α := ⟨compiler, m.event p⟩
      obtain ⟨hstep, hscale⟩ := h.motion compiler hsize m hzero
      obtain ⟨hrun, hrest⟩ := ih (r := r.step x) hstep
      have hsettings : (r.step x).session.settings = r.session.settings := settings_run r [x]
      rw [hsettings] at hrest
      refine ⟨hrun, hrest.trans ?_⟩
      rw [List.foldl_cons, ← hscale]
      rfl

end Transcript

namespace Exact

variable (exp exp2 : ℚ → ℚ) {size : ScreenSize ℚ} (hwidth : 0 < size.width)
  (hheight : 0 < size.height)

include hwidth hheight

theorem anchors (hexp : ∀ x, 0 < exp x) : @ScreenSize.Anchors ℚ (scalar exp exp2) size := by
  let _ := scalar exp exp2
  refine ⟨?_, ?_, ?_, ?_⟩
  · intro v delta hv
    exact ⟨rfl, rfl, hv.scale, hv.resolution⟩
  · intro v p amount rate hv
    have hscale : 0 < v.scale := (isMeasure_iff exp exp2).mp hv.scale
    refine ⟨rfl, rfl, ?_, hv.resolution⟩
    exact (isMeasure_iff exp exp2).mpr (mul_pos hscale (hexp (amount * rate)))
  · intro v p q
    have hpan := toPlane_pan exp exp2 hwidth hheight v ⟨q.x - p.x, q.y - p.y⟩ p
    rwa [add_sub_cancel, add_sub_cancel] at hpan
  · intro v p amount rate
    have haim : v.aim (.zoom p amount rate size) =
        about v (v.toPlane size p) (exp (amount * rate)) := by
      rw [about, ← pannedCenter_zoomShift exp exp2 hwidth hheight]
      rfl
    rw [haim, toPlane_about, homothety_self]

omit hwidth hheight

/-- Whatever has happened to a session, its view is usable and so are the sides of its screen. -/
theorem usable_run [KeyValueStore σ] {store : σ} {settings : Settings ℚ} {s : Session ℚ σ}
    (hs : @Session.ofSettings ℚ σ (scalar exp exp2) _ store settings = .ok s)
    (steps : List (Step ℚ)) :
    let r := @Transcript.run ℚ σ (scalar exp exp2) _ (.ofSession s) steps
    @View.Usable ℚ (scalar exp exp2) r.session.view ∧
      ∀ size, r.session.size = some size → 0 < size.width ∧ 0 < size.height := by
  let _ := scalar exp exp2
  intro r
  obtain ⟨hsettings, rfl⟩ := Session.ofSettings_eq_ok_iff.mp hs
  constructor
  · obtain ⟨ops, hops⟩ := Transcript.exists_run_view (.ofSession (.begun store settings)) steps
    have hone : (0 : ℚ) < 1.0 := by norm_num
    have hbegun : (View.atOrigin settings.defaultScale).Usable :=
      ⟨rfl, rfl, Settings.isMeasure_defaultScale hsettings, (isExtent_iff exp exp2).mpr hone⟩
    rw [hops]
    exact hbegun.run rfl ops
  · intro size hsize
    have hbegun : (Session.begun store settings).HasSides := by
      intro size hsize
      cases hsize
    have hsides := Transcript.hasSides_run (r := .ofSession _) hbegun steps size hsize
    obtain ⟨-, hwidth, hheight⟩ := ScreenSize.ofSides_eq_ok hsides
    exact ⟨(isExtent_iff exp exp2).mp hwidth, (isExtent_iff exp exp2).mp hheight⟩

end Exact

namespace Transcript

/-- The plane point that is grabbed follows the pointer. In exact numbers, with any positive factors
for the turns of the wheel: if the primary button goes down off all markers on a session with a
screen, and the pointer then moves anywhere while the wheel turns under it, in any order and number,
then the plane point under the pointer is the one that was under it at first. The gesture goes on,
and the scale has followed every turn of the wheel. -/
theorem run_grabbed_point_follows [KeyValueStore σ] (exp exp2 : ℚ → ℚ) (hexp : ∀ x, 0 < exp x)
    (store : σ) (settings : Settings ℚ) (s : Session ℚ σ) (steps : List (Step ℚ))
    (size : ScreenSize ℚ) (p : ScreenPoint ℚ) (compiler : Compiler) (modifiers : Modifiers)
    (motions : List (Motion ℚ)) :
    letI := Exact.scalar exp exp2
    let r := (ofSession s).run steps
    let t := (r.step ⟨compiler, .pointerDown p .primary modifiers⟩).run
      (Motion.steps compiler p motions)
    Session.ofSettings store settings = .ok s → r.session.size = some size →
    r.session.registry.markerAt p r.session.settings.markerRadius = none →
      t.session.size = some size ∧
      t.session.drag = .panning (Motion.endpoints p motions) ∧
      t.session.view.toPlane size (Motion.endpoints p motions) = r.session.view.toPlane size p ∧
      t.session.view.scale =
        motions.foldl (Motion.rescale r.session.settings.zoomRate) r.session.view.scale := by
  intro r t hs hsize hoff
  let _ := Exact.scalar exp exp2
  obtain ⟨husable, hsides⟩ := Exact.usable_run exp exp2 hs steps
  obtain ⟨hwidth, hheight⟩ := hsides size hsize
  have hanchors : size.Anchors := Exact.anchors exp exp2 hwidth hheight hexp
  let down : Step ℚ := ⟨compiler, .pointerDown p .primary modifiers⟩
  obtain ⟨hholds, hview⟩ :=
    Session.holds_pointerDown (s := r.session) compiler modifiers hsize husable hoff
  obtain ⟨hrun, hscale⟩ := holds_run (r := r.step down) hanchors rfl hholds compiler motions
  have hsettings : (r.step down).session.settings = r.session.settings := settings_run r [down]
  have hbefore : (r.step down).session.view.scale = r.session.view.scale :=
    congrArg View.scale hview
  rw [hsettings, hbefore] at hscale
  exact ⟨hrun.sized, hrun.drag, hrun.under, hscale⟩

/-- The wheel halves and doubles the scale between moves, on a screen that is wider than high and on
which another point has its marker. -/
theorem run_grabbed_point_follows_mixed :
    let exp : ℚ → ℚ := fun x => if x < 0 then 1 / 2 else 2
    letI := Exact.scalar exp exp
    let accepting : Compiler := fun _ _ => .accepted
    let modifiers : Modifiers := .ofMask 0
    let s : Session ℚ MemoryStore := .begun ⟨[]⟩ .initial
    let size : ScreenSize ℚ := ⟨200, 100⟩
    let p : ScreenPoint ℚ := ⟨30, 40⟩
    let motions : List (Motion ℚ) :=
      [.move ⟨50, 20⟩ modifiers, .wheel ⟨0, -1⟩ modifiers, .move ⟨10, 90⟩ modifiers,
        .wheel ⟨0, 1⟩ modifiers, .wheel ⟨0, 1⟩ modifiers]
    let r := (ofSession s).run
      [⟨accepting, .resize 200 100⟩, ⟨accepting, .addPoint "a" ⟨0, 0⟩⟩]
    let t := (r.step ⟨accepting, .pointerDown p .primary modifiers⟩).run
      (Motion.steps accepting p motions)
    (∀ x, 0 < exp x) ∧ Session.ofSettings ⟨[]⟩ .initial = .ok s ∧
      r.session.size = some size ∧
      r.session.registry.markerAt p r.session.settings.markerRadius = none ∧
      t.session.view.toPlane size ⟨10, 90⟩ = ⟨-21 / 5, 3 / 5⟩ ∧ t.session.view.scale = 6 := by
  intro exp accepting modifiers s size p motions r t
  have hexp : ∀ x, 0 < exp x := by
    intro x
    simp only [exp]
    split <;> norm_num
  let _ := Exact.scalar exp exp
  have hs : Session.ofSettings ⟨[]⟩ .initial = .ok s :=
    Session.ofSettings_eq_ok_iff.mpr ⟨by decide +kernel, rfl⟩
  have hsize : r.session.size = some size := by decide +kernel
  have hoff : r.session.registry.markerAt p r.session.settings.markerRadius = none := by
    decide +kernel
  have hunder : r.session.view.toPlane size p = ⟨-21 / 5, 3 / 5⟩ := by decide +kernel
  have hscale : motions.foldl (Motion.rescale r.session.settings.zoomRate) r.session.view.scale =
      6 := by decide +kernel
  obtain ⟨-, -, hfollows, hrescaled⟩ := run_grabbed_point_follows exp exp hexp ⟨[]⟩ .initial s _
    size p accepting modifiers motions hs hsize hoff
  exact ⟨hexp, hs, hsize, hoff, hfollows.trans hunder, hrescaled.trans hscale⟩

end Transcript

end PlotPane
