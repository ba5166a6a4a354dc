import PlotPane.Number.Double
import PlotPane.Proofs.Markers

/-!
# Views stay usable

A view is usable if its center is finite, its scale is a normal positive number and its resolution
is finite and positive. Each of the four operations on a view aims at another view. It gets there
exactly if that view is usable too, and otherwise nothing happens, so views stay usable whatever is
asked of them. In a session this means that the way back to the origin is always open.
-/

namespace PlotPane

variable {α σ : Type} [Scalar α]

namespace Scalar

theorem isMeasure_iff {x : α} : isMeasure x = true ↔ isNormal x = true ∧ 0.0 < x := by
  simp [isMeasure, isPositive]

theorem isExtent_iff {x : α} : isExtent x = true ↔ isFinite x = true ∧ 0.0 < x := by
  simp [isExtent, isPositive]

end Scalar

namespace View

structure Usable (v : View α) : Prop where
  re : Scalar.isFinite v.center.re = true
  im : Scalar.isFinite v.center.im = true
  scale : Scalar.isMeasure v.scale = true
  resolution : Scalar.isExtent v.resolution = true

inductive Operation (α : Type) where
  | pan (delta : ScreenPoint α) (size : ScreenSize α)
  | zoom (cursor : ScreenPoint α) (amount rate : α) (size : ScreenSize α)
  | reset (scale : α)
  | setResolution (factor : α)
  deriving DecidableEq, Repr

/-- The view that an operation aims at, whether or not it can be had. -/
def aim (v : View α) : Operation α → View α
  | .pan delta size => { v with center := v.pannedCenter delta size }
  | .zoom cursor amount rate size =>
    let factor := Scalar.exp (amount * rate)
    { v with
      center := v.pannedCenter (zoomShift cursor factor size) size
      scale := v.scale * factor }
  | .reset scale => { v with center := ⟨0.0, 0.0⟩, scale := scale }
  | .setResolution factor => { v with resolution := factor }

def attempt (v : View α) : Operation α → Except (ViewError α) (View α)
  | .pan delta size => v.pan delta size
  | .zoom cursor amount rate size => (v.zoom cursor amount rate size).map Prod.snd
  | .reset scale => v.reset scale
  | .setResolution factor => v.setResolution factor

/-- The view after an operation. One that is rejected leaves it as it was. -/
def perform (v : View α) (op : Operation α) : View α :=
  (v.attempt op).toOption.getD v

def run (v : View α) (ops : List (Operation α)) : View α :=
  ops.foldl perform v

variable {v v' : View α}

/-- An operation on a usable view is accepted exactly if it aims at a usable view, and then it gets
there. -/
theorem attempt_eq_ok_iff (hzero : Scalar.isFinite (0.0 : α) = true) (hv : v.Usable)
    (op : Operation α) : v.attempt op = .ok v' ↔ v' = v.aim op ∧ v'.Usable := by
  cases op with
  | pan delta size =>
      rw [attempt, pan, moveTo_eq_ok_iff]
      constructor
      · rintro ⟨⟨hre, him⟩, rfl⟩
        exact ⟨rfl, hre, him, hv.scale, hv.resolution⟩
      · rintro ⟨rfl, h⟩
        exact ⟨⟨h.re, h.im⟩, rfl⟩
  | zoom cursor amount rate size =>
      rw [attempt, zoom, map_eq_ok_iff]
      constructor
      · -- The scale is checked first, and then the center, which is panned at the old scale.
        rintro ⟨⟨factor, w⟩, hzoom, rfl⟩
        obtain ⟨w', hzoomBy, heq⟩ := map_eq_ok_iff.mp hzoom
        obtain ⟨rfl, rfl⟩ := Prod.mk.inj heq
        obtain ⟨hscale, moved, hmove, rfl⟩ := zoomBy_eq_ok_iff.mp hzoomBy
        obtain ⟨⟨hre, him⟩, rfl⟩ := moveTo_eq_ok_iff.mp hmove
        exact ⟨rfl, hre, him, hscale, hv.resolution⟩
      · rintro ⟨rfl, h⟩
        refine ⟨(Scalar.exp (amount * rate), _), ?_, rfl⟩
        have hzoomBy := zoomBy_eq_ok_iff.mpr
          ⟨h.scale, _, moveTo_eq_ok_iff.mpr ⟨⟨h.re, h.im⟩, rfl⟩, rfl⟩
        exact map_eq_ok_iff.mpr ⟨_, hzoomBy, rfl⟩
  | reset scale =>
      rw [attempt, reset, ite_eq_ok_iff, Except.ok.injEq]
      constructor
      · rintro ⟨hscale, rfl⟩
        exact ⟨rfl, hzero, hzero, hscale, hv.resolution⟩
      · rintro ⟨rfl, h⟩
        exact ⟨h.scale, rfl⟩
  | setResolution factor =>
      rw [attempt, setResolution, ite_eq_ok_iff, Except.ok.injEq]
      constructor
      · rintro ⟨hfactor, rfl⟩
        exact ⟨rfl, hv.re, hv.im, hv.scale, hfactor⟩
      · rintro ⟨rfl, h⟩
        exact ⟨h.resolution, rfl⟩

/-- What an operation leaves as it was, even if it is accepted. -/
def Spares (v v' : View α) : Operation α → Prop
  | .pan _ _ => v'.scale = v.scale ∧ v'.resolution = v.resolution
  | .zoom _ _ _ _ => v'.resolution = v.resolution
  | .reset _ => v'.resolution = v.resolution
  | .setResolution _ => v'.center = v.center ∧ v'.scale = v.scale

theorem spares_aim (v : View α) (op : Operation α) : v.Spares (v.aim op) op := by
  cases op with
  | pan delta size => exact ⟨rfl, rfl⟩
  | zoom cursor amount rate size => exact rfl
  | reset scale => exact rfl
  | setResolution factor => exact ⟨rfl, rfl⟩

theorem perform_of_ok {op : Operation α} (h : v.attempt op = .ok v') : v.perform op = v' := by
  rw [perform, h]
  rfl

theorem perform_of_error {op : Operation α} {err : ViewError α} (h : v.attempt op = .error err) :
    v.perform op = v := by
  rw [perform, h]
  rfl

theorem Usable.rejected_iff (hzero : Scalar.isFinite (0.0 : α) = true) (hv : v.Usable)
    (op : Operation α) : (∃ err, v.attempt op = .error err) ↔ ¬ (v.aim op).Usable := by
  cases h : v.attempt op with
  | error err =>
      refine ⟨fun _ husable => ?_, fun _ => ⟨err, rfl⟩⟩
      have hok := (attempt_eq_ok_iff hzero hv op).mpr ⟨rfl, husable⟩
      cases h.symm.trans hok
  | ok w =>
      obtain ⟨rfl, husable⟩ := (attempt_eq_ok_iff hzero hv op).mp h
      constructor
      · rintro ⟨err, ⟨⟩⟩
      · exact fun hnot => absurd husable hnot

theorem Usable.perform (hzero : Scalar.isFinite (0.0 : α) = true) (hv : v.Usable)
    (op : Operation α) : (v.perform op).Usable := by
  cases h : v.attempt op with
  | error err =>
      rw [perform_of_error h]
      exact hv
  | ok w =>
      rw [perform_of_ok h]
      exact ((attempt_eq_ok_iff hzero hv op).mp h).2

theorem Usable.run (hzero : Scalar.isFinite (0.0 : α) = true) (hv : v.Usable)
    (ops : List (Operation α)) : (v.run ops).Usable := by
  induction ops generalizing v with
  | nil => exact hv
  | cons op ops ih => exact ih (hv.perform hzero op)

theorem run_concat (v : View α) (ops : List (Operation α)) (op : Operation α) :
    v.run (ops ++ [op]) = (v.run ops).perform op := by
  rw [run, List.foldl_append]
  rfl

theorem usable_atOrigin {scale : Float} (h : Scalar.isMeasure scale = true) :
    (atOrigin scale).Usable where
  re := Double.isFinite_zero
  im := Double.isFinite_zero
  scale := h
  resolution := show Scalar.isExtent (1.0 : Float) = true by decide +kernel

theorem Moved.exists_attempt {size : Option (ScreenSize α)} (h : v.Moved size v') :
    ∃ op, v.attempt op = .ok v' := by
  cases h with
  | reset h => exact ⟨.reset _, h⟩
  | panned hsize h => exact ⟨.pan _ _, h⟩
  | zoomed hsize h => exact ⟨.zoom _ _ _ _, map_eq_ok_iff.mpr ⟨_, h, rfl⟩⟩

end View

theorem Settings.isMeasure_defaultScale {settings : Settings α} (h : settings.invalid? = none) :
    Scalar.isMeasure settings.defaultScale = true := by
  have hall := List.find?_eq_none.mp h ("default_scale", settings.defaultScale) (by simp [measures])
  simpa using hall

namespace Session

variable {compiler : Compiler} {event : Event α} {s s' : Session α σ} {cs : List (Call α)}

theorem Effect.settings_eq (h : Effect compiler event s s' cs) : s'.settings = s.settings := by
  cases h with
  | compiled h hc =>
      obtain ⟨error, scheduler, rfl⟩ := hc.eq_with
      rfl
  | _ => rfl

/-- The view changes only by an operation that is accepted. -/
theorem Effect.view_eq (h : Effect compiler event s s' cs) :
    s'.view = s.view ∨ ∃ op, s.view.attempt op = .ok s'.view := by
  cases h with
  | unseen hsize h =>
      rcases h with hmoved | ⟨factor, hv⟩
      · exact Or.inr hmoved.exists_attempt
      · exact Or.inr ⟨.setResolution factor, hv⟩
  | looked hsize h => exact Or.inr h.exists_attempt
  | surfaced h =>
      rcases h with ⟨rfl, -⟩ | ⟨-, factor, hv⟩
      · exact Or.inl rfl
      · exact Or.inr ⟨.setResolution factor, hv⟩
  | compiled h hc =>
      obtain ⟨error, scheduler, rfl⟩ := hc.eq_with
      exact Or.inl rfl
  | _ => exact Or.inl rfl

/-- The screen has sides that were checked. -/
def HasSides (s : Session α σ) : Prop :=
  ∀ size, s.size = some size → ScreenSize.ofSides size.width size.height = .ok size

theorem Effect.hasSides (h : Effect compiler event s s' cs) (hs : s.HasSides) : s'.HasSides := by
  cases h with
  | surfaced h =>
      rintro size ⟨⟩
      rcases h with ⟨-, hsides, -⟩ | ⟨hsize, -⟩
      · exact hsides
      · exact hs _ hsize
  | compiled h hc =>
      obtain ⟨error, scheduler, rfl⟩ := hc.eq_with
      exact hs
  | _ => exact hs

theorem Responds.view_eq (h : s.Responds compiler event s' cs) :
    s'.view = s.view ∨ ∃ op, s.view.attempt op = .ok s'.view := by
  obtain ⟨s₁, s₂, h₁, he, h₂⟩ := h
  rw [← h₁.view, h₂.view]
  exact he.view_eq

variable [KeyValueStore σ]

theorem view_handle (compiler : Compiler) (s : Session α σ) (e : Event α) :
    (s.handle compiler e).session.view = s.view ∨
      ∃ op, s.view.attempt op = .ok (s.handle compiler e).session.view := by
  rcases e.start_or_other with ⟨width, height, rfl⟩ | hother
  · -- The compilation at the end of the start does not touch the view.
    obtain ⟨s', cs, ds, hr, hc, -⟩ := handle_start compiler s width height
    obtain ⟨error, scheduler, heq⟩ := hc.eq_with
    rw [heq]
    exact hr.view_eq
  · exact (handle_responds compiler s hother).view_eq

end Session

namespace Transcript

variable [KeyValueStore σ]

/-- To its view, a run of a session is a run of operations. -/
theorem exists_run_view (r : Transcript α σ) (steps : List (Step α)) :
    ∃ ops, (r.run steps).session.view = r.session.view.run ops := by
  refine run_induction (P := fun t => ∃ ops, t.session.view = r.session.view.run ops) ?_
    ⟨[], rfl⟩ steps
  rintro t x ⟨ops, hops⟩
  rcases Session.view_handle x.compiler t.session x.event with heq | ⟨op, hop⟩
  · exact ⟨ops, heq.trans hops⟩
  · refine ⟨ops ++ [op], ?_⟩
    rw [View.run_concat, ← hops, View.perform_of_ok hop]
    rfl

theorem settings_run (r : Transcript α σ) (steps : List (Step α)) :
    (r.run steps).session.settings = r.session.settings := by
  refine run_keeps_calls (P := fun s _ => s.settings = r.session.settings) ?_ ?_ ?_ rfl steps
  · intro s s' log haside hs
    rw [haside.settings, hs]
  · intro compiler event s s' cs log heffect hs
    rw [heffect.settings_eq, hs]
  · intro s log hs
    exact hs

theorem hasSides_run {r : Transcript α σ} (h : r.session.HasSides) (steps : List (Step α)) :
    (r.run steps).session.HasSides := by
  refine run_keeps_calls (P := fun s _ => s.HasSides) ?_ ?_ ?_ h steps
  · intro s s' log haside hs size hsize
    exact hs size (haside.size.symm.trans hsize)
  · intro compiler event s s' cs log heffect hs
    exact heffect.hasSides hs
  · intro s log hs
    exact hs

end Transcript

theorem Turn.view_viewChanged (t : Turn α σ) : t.viewChanged.session.view = t.session.view := by
  cases hsize : t.session.size with
  | none => rw [viewChanged_of_none hsize]
  | some size => rw [(viewChanged_of_some hsize).1]

theorem Session.view_resetView [KeyValueStore σ] (compiler : Compiler) {s : Session α σ}
    {v : View α} (h : s.view.reset s.settings.defaultScale = .ok v) :
    (s.handle compiler .resetView).session.view = v := by
  have hreset : (Turn.ofSession s).resetView =
      ((Turn.ofSession s).update fun s => { s with view := v }).viewChanged.tellLabel := by
    have hv : (Turn.ofSession s).session.view.reset
        (Turn.ofSession s).session.settings.defaultScale = .ok v := h
    rw [Turn.resetView, hv]
  rw [handle, hreset]
  exact Turn.view_viewChanged _

namespace View

/-- Whatever is asked of a view, it stays usable. After every run of operations on a view that was
made from a scale, the center is finite, the scale is normal and positive, and the resolution is
finite and positive. An operation is rejected exactly if it aims at a view that is not usable, and
then nothing changes; one that is accepted leads to the view it aims at and leaves the rest as it
was. And in a session, whatever has happened, the view can be reset. -/
theorem run_stays_usable [KeyValueStore σ] {v : View Float}
    (hv : v = initial ∨ ∃ scale, ofScale scale = .ok v) (ops : List (Operation Float)) :
    let w := v.run ops
    (Scalar.isFinite w.center.re = true ∧ Scalar.isFinite w.center.im = true ∧
      Scalar.isNormal w.scale = true ∧ 0.0 < w.scale ∧
      Scalar.isFinite w.resolution = true ∧ 0.0 < w.resolution) ∧
    (∀ op, (∃ err, w.attempt op = .error err) ↔ ¬ (w.aim op).Usable) ∧
    (∀ op err, w.attempt op = .error err → w.perform op = w) ∧
    (∀ op w', w.attempt op = .ok w' → w.perform op = w' ∧ w' = w.aim op ∧ w.Spares w' op) ∧
    ∀ (store : σ) (settings : Settings Float) (s : Session Float σ),
      Session.ofSettings store settings = .ok s → ∀ steps,
        let r := (Transcript.ofSession s).run steps
        let origin : View Float := ⟨⟨0.0, 0.0⟩, settings.defaultScale, r.session.view.resolution⟩
        r.session.view.Usable ∧
          (∀ compiler e, (r.session.handle compiler e).session.view = r.session.view ∨
            ∃ op, r.session.view.attempt op = .ok (r.session.handle compiler e).session.view) ∧
          r.session.view.reset r.session.settings.defaultScale = .ok origin ∧
          ∀ compiler, (r.session.handle compiler .resetView).session.view = origin := by
  intro w
  have hstart : v.Usable := by
    rcases hv with rfl | ⟨scale, hscale⟩
    · exact usable_atOrigin (by decide +kernel)
    · obtain ⟨hmeasure, heq⟩ := ite_eq_ok_iff.mp hscale
      cases heq
      exact usable_atOrigin hmeasure
  have hw : w.Usable := hstart.run Double.isFinite_zero ops
  refine ⟨?_, hw.rejected_iff Double.isFinite_zero, fun op err => perform_of_error, ?_, ?_⟩
  · obtain ⟨hnormal, hscale⟩ := Scalar.isMeasure_iff.mp hw.scale
    obtain ⟨hfinite, hresolution⟩ := Scalar.isExtent_iff.mp hw.resolution
    exact ⟨hw.re, hw.im, hnormal, hscale, hfinite, hresolution⟩
  · intro op w' hop
    obtain ⟨rfl, -⟩ := (attempt_eq_ok_iff Double.isFinite_zero hw op).mp hop
    exact ⟨perform_of_ok hop, rfl, w.spares_aim op⟩
  · intro store settings s hs steps r origin
    obtain ⟨hvalid, rfl⟩ := Session.ofSettings_eq_ok_iff.mp hs
    have hscale := Settings.isMeasure_defaultScale hvalid
    obtain ⟨ops, hops⟩ := Transcript.exists_run_view (.ofSession (.begun store settings)) steps
    have hr : r.session.view.Usable := by
      rw [hops]
      exact (usable_atOrigin hscale).run Double.isFinite_zero ops
    have hsettings : r.session.settings = settings := Transcript.settings_run _ steps
    have hreset : r.session.view.reset r.session.settings.defaultScale = .ok origin := by
      rw [hsettings, reset, if_pos hscale]
    exact ⟨hr, fun compiler => Session.view_handle compiler r.session, hreset,
      fun compiler => Session.view_resetView compiler hreset⟩

/-- A pan and a zoom at infinity, a reset to a NaN scale and to zero, and a negative resolution,
between what is accepted. -/
theorem run_stays_usable_hostile :
    let infinity : Float := 1.0 / 0.0
    let size : ScreenSize Float := ⟨200.0, 100.0⟩
    let v : View Float := ⟨⟨0.0, 0.0⟩, 3.0, 1.0⟩
    let ops : List (View.Operation Float) :=
      [.pan ⟨25.0, 0.0⟩ size, .pan ⟨infinity, 0.0⟩ size, .reset (0.0 / 0.0), .setResolution (-1.0),
        .setResolution 4.0, .reset 0.0]
    let w : View Float := ⟨⟨-1.5, 0.0⟩, 3.0, 4.0⟩
    let s : Session Float MemoryStore := .begun ⟨[]⟩ .initial
    let steps : List (Step Float) :=
      [⟨fun _ _ => .accepted, .start 200.0 100.0⟩,
        ⟨fun _ _ => .accepted, .wheel ⟨infinity, 0.0⟩ ⟨0.0, 1.0⟩ ⟨false, false, false, false⟩⟩]
    ofScale 3.0 = .ok v ∧ v.run ops = w ∧
    w.attempt (.pan ⟨infinity, 0.0⟩ size) = .error (.center (-infinity) 0.0) ∧
    w.perform (.pan ⟨infinity, 0.0⟩ size) = w ∧
    (((Transcript.ofSession s).run steps).session.handle (fun _ _ => .accepted)
      .resetView).session.view.center = ⟨0.0, 0.0⟩ := by
  intro infinity size v ops w s steps
  have hv : ofScale 3.0 = .ok v := if_pos (by decide +kernel)
  have hw : v.run ops = w := by decide +kernel
  have hpan : w.attempt (.pan ⟨infinity, 0.0⟩ size) = .error (.center (-infinity) 0.0) := by
    refine (if_neg ?_).trans (congrArg Except.error ?_) <;> decide +kernel
  have hs : Session.ofSettings ⟨[]⟩ .initial = .ok s :=
    Session.ofSettings_eq_ok_iff.mpr ⟨by decide +kernel, rfl⟩
  obtain ⟨-, -, hrejected, -, hsession⟩ :=
    run_stays_usable (σ := MemoryStore) (Or.inr ⟨3.0, hv⟩) ops
  rw [hw] at hrejected
  obtain ⟨-, -, -, hreset⟩ := hsession ⟨[]⟩ .initial s hs steps
  exact ⟨hv, hw, hpan, hrejected _ _ hpan, by rw [hreset]⟩

end View

end PlotPane
