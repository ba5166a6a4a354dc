import Mathlib
import PlotPane.Proofs.Spans
import PlotPane.Proofs.ViewMirror
import PlotPane.Proofs.Views

/-!
# The rectangles of which the plotter is told

The plotter is told of the visible rectangle whenever the view or the screen changes. The view and
the screen are checked, each by itself, and the rectangle that they make together is not: far out or
on a wide screen it may have infinite sides, or no width. Its sides keep their order in any case.
-/

namespace PlotPane

/-- A rectangle with a width and a height. -/
structure Bounds.Proper (b : Bounds Float) : Prop where
  left : b.left.isFinite = true
  bottom : b.bottom.isFinite = true
  right : b.right.isFinite = true
  top : b.top.isFinite = true
  width : b.left < b.right
  height : b.bottom < b.top

namespace View

open Double

variable {v : View Float} {size : ScreenSize Float}

theorem Usable.isFinite_scale (hv : v.Usable) : v.scale.isFinite = true ∧ 0.0 < v.scale := by
  obtain ⟨hnormal, hpos⟩ := Scalar.isMeasure_iff.mp hv.scale
  exact ⟨(Bool.and_eq_true_iff.mp hnormal).1, hpos⟩

variable (hv : v.Usable) (hsize : ScreenSize.ofSides size.width size.height = .ok size)

include hv hsize

theorem forward_halfWidth : Forward (v.scale * size.aspect).toModel.unpack := by
  obtain ⟨-, hwidth, hheight⟩ := ScreenSize.ofSides_eq_ok hsize
  obtain ⟨hwidth, hwidth'⟩ := Scalar.isExtent_iff.mp hwidth
  obtain ⟨hheight, hheight'⟩ := Scalar.isExtent_iff.mp hheight
  obtain ⟨hscale, hscale'⟩ := hv.isFinite_scale
  exact forward_mul hscale hscale' (forward_div hwidth hwidth' hheight hheight')

theorem bounds_ordered :
    (v.bounds size).left ≤ (v.bounds size).right ∧
      (v.bounds size).bottom ≤ (v.bounds size).top := by
  obtain ⟨hscale, hscale'⟩ := hv.isFinite_scale
  exact ⟨sub_le_add hv.re (forward_halfWidth hv hsize),
    sub_le_add hv.im (forward_of_pos hscale hscale')⟩

theorem bounds_proper_iff :
    (v.bounds size).Proper ↔
      Spans v.center.re (v.scale * size.aspect) ∧ Spans v.center.im v.scale := by
  obtain ⟨hscale, hscale'⟩ := hv.isFinite_scale
  rw [← spans_iff hv.re (forward_halfWidth hv hsize),
    ← spans_iff hv.im (forward_of_pos hscale hscale')]
  constructor
  · rintro ⟨hleft, hbottom, hright, htop, hwidth, hheight⟩
    exact ⟨⟨hleft, hright, hwidth⟩, hbottom, htop, hheight⟩
  · rintro ⟨⟨hleft, hright, hwidth⟩, hbottom, htop, hheight⟩
    exact ⟨hleft, hbottom, hright, htop, hwidth, hheight⟩

end View

variable {α σ : Type}

theorem Session.Appearance.exists_bounds [Scalar α] {s s' : Session α σ} {cs : List (Call α)}
    (h : Appearance s s' cs) {b : Bounds α} (hb : .bounds b ∈ cs) :
    ∃ size, s'.size = some size ∧ b = s'.view.bounds size := by
  have hother {ds : List (Call α)} (hds : ∀ d ∈ ds, d.topic.isContent = true) :
      .bounds b ∉ ds := fun hmem => Bool.false_ne_true (hds _ hmem)
  cases h with
  | same hview hsize hstyle hds => exact absurd hb (hother hds)
  | restyled h hview hsize hds =>
      rcases List.mem_cons.mp hb with rfl | hmem
      · have htopic : Call.Topic.view = .style := h.topic
        cases htopic
      · exact absurd hmem (hother hds)
  | unseen hsize hsize' hstyle => cases hb
  | looked hsize hsize' hresolution hstyle hds =>
      rcases List.mem_cons.mp hb with heq | hmem
      · exact ⟨_, hsize', Call.bounds.inj heq⟩
      · exact absurd hmem (hother hds)
  | surfaced hsize' hstyle hds =>
      rcases List.mem_append.mp hb with hmem | hmem
      · refine ⟨_, hsize', ?_⟩
        simpa [View.calls] using hmem
      · exact absurd hmem (hother hds)

theorem Session.Responds.exists_bounds [Scalar α] {compiler : Compiler} {event : Event α}
    {s s' : Session α σ} {cs : List (Call α)} (h : s.Responds compiler event s' cs) {b : Bounds α}
    (hb : .bounds b ∈ cs) : ∃ size, s'.size = some size ∧ b = s'.view.bounds size := by
  obtain ⟨s₁, s₂, -, heffect, haside⟩ := h
  rw [haside.size, haside.view]
  exact heffect.appearance.exists_bounds hb

/-- The rectangle of which an answer tells is the one that is seen after it. -/
theorem Session.exists_bounds_handle [Scalar α] [KeyValueStore σ] {compiler : Compiler}
    {s : Session α σ} {e : Event α} {b : Bounds α} (hb : .bounds b ∈ (s.handle compiler e).calls) :
    ∃ size, (s.handle compiler e).session.size = some size ∧
      b = (s.handle compiler e).session.view.bounds size := by
  rcases e.start_or_other with ⟨width, height, rfl⟩ | hother
  · obtain ⟨s', cs, ds, hr, hc, hcalls⟩ := handle_start compiler s width height
    obtain ⟨hview, hsize, -⟩ := hc.appearance
    rw [hview, hsize]
    rw [hcalls, List.mem_append, List.mem_append] at hb
    rcases hb with (hstyle | hcs) | hds
    · have htopic : Call.Topic.view = .style := Style.topic_calls hstyle
      cases htopic
    · exact hr.exists_bounds hcs
    · exact absurd (hc.isContent hds) Bool.false_ne_true
  · exact (handle_responds compiler s hother).exists_bounds hb

namespace Transcript

open Double

variable [KeyValueStore σ]

/-- Every rectangle of which the plotter is told along a run is seen at some moment of it. -/
theorem exists_bounds_run [Scalar α] {r : Transcript α σ} {steps : List (Step α)} {b : Bounds α}
    (hb : .bounds b ∈ (r.run steps).calls) (hr : .bounds b ∉ r.calls) :
    ∃ before after size, steps = before ++ after ∧ (r.run before).session.size = some size ∧
      b = (r.run before).session.view.bounds size := by
  induction steps generalizing r with
  | nil => exact absurd hb hr
  | cons x steps ih =>
      by_cases hx : .bounds b ∈ (r.step x).calls
      · rw [calls_step, List.mem_append] at hx
        obtain ⟨size, hsize, heq⟩ := Session.exists_bounds_handle (hx.resolve_left hr)
        exact ⟨[x], steps, size, rfl, hsize, heq⟩
      · obtain ⟨before, after, size, rfl, hsize, heq⟩ := ih hb hx
        exact ⟨x :: before, after, size, rfl, hsize, heq⟩

/-- Every rectangle of which the plotter is told is the one that the session shows at that moment,
and its sides are never the wrong way around. It has four finite sides, a width and a height exactly
if both steps from the center span: half of the width and half of the height are finite, they stay
below infinity when they are added to the center, and they are not lost beside it. The last is sure
as long as the center is less than `2 ^ 53` such steps away from the origin. -/
theorem run_bounds_proper_iff {store : σ} {settings : Settings Float} {s : Session Float σ}
    (hs : Session.ofSettings store settings = .ok s) (steps : List (Step Float)) {b : Bounds Float}
    (hb : .bounds b ∈ ((ofSession s).run steps).calls) :
    ∃ (before after : List (Step Float)) (size : ScreenSize Float),
      let t := ((ofSession s).run before).session
      let v := t.view
      (steps = before ++ after ∧ t.size = some size ∧ b = v.bounds size) ∧
      (b.left ≤ b.right ∧ b.bottom ≤ b.top) ∧
      (b.Proper ↔ Spans v.center.re (v.scale * size.aspect) ∧ Spans v.center.im v.scale) ∧
      (Clear v.center.re (v.scale * size.aspect) → Clear v.center.im v.scale → b.Proper) := by
  obtain ⟨hvalid, rfl⟩ := Session.ofSettings_eq_ok_iff.mp hs
  obtain ⟨before, after, size, hsteps, hsize, rfl⟩ := exists_bounds_run hb List.not_mem_nil
  have hbegun : (Session.begun store settings).HasSides := by
    intro size hsize
    cases hsize
  have hsides := hasSides_run (r := ofSession _) hbegun before size hsize
  have hview : ((ofSession (.begun store settings)).run before).session.view.Usable := by
    obtain ⟨ops, hops⟩ := exists_run_view (.ofSession (.begun store settings)) before
    rw [hops]
    exact (View.usable_atOrigin (Settings.isMeasure_defaultScale hvalid)).run isFinite_zero ops
  have hproper := View.bounds_proper_iff hview hsides
  refine ⟨before, after, size, ⟨hsteps, hsize, rfl⟩, View.bounds_ordered hview hsides, hproper, ?_⟩
  intro hre him
  exact hproper.mpr ⟨hre.spans hview.re, him.spans hview.im⟩

/-- Near the largest doubles a square screen can still be told. -/
theorem run_bounds_proper_iff_huge :
    let huge : Settings Float := { (.initial : Settings Float) with defaultScale := 1e308 }
    let s : Session Float MemoryStore := .begun ⟨[]⟩ huge
    let steps : List (Step Float) := [⟨fun _ _ => .accepted, .resize 100.0 100.0⟩]
    let b : Bounds Float := ⟨-1e308, -1e308, 1e308, 1e308⟩
    Session.ofSettings ⟨[]⟩ huge = .ok s ∧ .bounds b ∈ ((ofSession s).run steps).calls ∧ b.Proper ∧
      ∃ (v : View Float) (size : ScreenSize Float), b = v.bounds size ∧
        Spans v.center.re (v.scale * size.aspect) ∧ Spans v.center.im v.scale := by
  intro huge s steps b
  have hs : Session.ofSettings ⟨[]⟩ huge = .ok s :=
    Session.ofSettings_eq_ok_iff.mpr ⟨by decide +kernel, rfl⟩
  have hb : .bounds b ∈ ((ofSession s).run steps).calls := by decide +kernel
  have hproper : b.Proper := by
    refine ⟨?_, ?_, ?_, ?_, ?_, ?_⟩ <;> decide +kernel
  clear_value huge s steps b
  obtain ⟨before, after, size, ⟨-, -, heq⟩, -, hiff, -⟩ := run_bounds_proper_iff hs steps hb
  exact ⟨hs, hb, hproper, _, size, heq, hiff.mp hproper⟩

/-- On a wider screen the same view has infinite sides, and a plane that was dragged far enough is
seen through a rectangle without a width. -/
theorem infinite_and_flat_bounds_told :
    let accepting : Compiler := fun _ _ => .accepted
    let huge : Settings Float := { (.initial : Settings Float) with defaultScale := 1e308 }
    let s : Session Float MemoryStore := .begun ⟨[]⟩ huge
    let s' : Session Float MemoryStore := .begun ⟨[]⟩ .initial
    let wide : List (Step Float) :=
      [⟨accepting, .resize 100.0 100.0⟩, ⟨accepting, .resize 200.0 100.0⟩]
    let far : List (Step Float) :=
      [⟨accepting, .resize 100.0 100.0⟩, ⟨accepting, .pointerDown ⟨0.0, 0.0⟩ .primary (.ofMask 0)⟩,
        ⟨accepting, .pointerMove ⟨1e20, 0.0⟩ (.ofMask 0)⟩]
    let infinity : Float := 1.0 / 0.0
    let infinite : Bounds Float := ⟨-infinity, -1e308, infinity, 1e308⟩
    let flat : Bounds Float := ⟨-6e18, -3.0, -6e18, 3.0⟩
    (Session.ofSettings ⟨[]⟩ huge = .ok s ∧ .bounds infinite ∈ ((ofSession s).run wide).calls ∧
      ¬ infinite.Proper) ∧
    (Session.ofSettings ⟨[]⟩ .initial = .ok s' ∧ .bounds flat ∈ ((ofSession s').run far).calls ∧
      ¬ flat.Proper) := by
  intro accepting huge s s' wide far infinity infinite flat
  refine ⟨⟨?_, ?_, ?_⟩, ?_, ?_, ?_⟩
  · exact Session.ofSettings_eq_ok_iff.mpr ⟨by decide +kernel, rfl⟩
  · decide +kernel
  · intro h
    exact absurd h.left (by decide +kernel)
  · exact Session.ofSettings_eq_ok_iff.mpr ⟨by decide +kernel, rfl⟩
  · decide +kernel
  · intro h
    exact absurd h.width (by decide +kernel)

end Transcript

end PlotPane
