import PlotPane.Number.Double
import PlotPane.Proofs.Answers

/-!
# Frames

A frame is drawn only from an expression that the plotter accepted, and only as the last thing that
an event tells the plotter. Whenever a frame could be drawn and none is pending, the last call was
the one that drew it, so the frame on the screen is not stale.
-/

namespace PlotPane

variable {α σ : Type}

namespace Scheduler

variable (wanted : Bool) (s : Scheduler)

@[simp] theorem ready_requestFor : (s.requestFor wanted).2.ready = s.ready := by
  obtain ⟨auto, ready, pending⟩ := s
  cases wanted <;> cases auto <;> cases ready <;> rfl

theorem drawn_of_settled (hready : s.ready = true)
    (hpending : (s.requestFor wanted).2.pending = false) : (s.requestFor wanted).1 = .drawn := by
  cases wanted with
  | true => simp [requestFor, drawNow, hready]
  | false =>
      cases hauto : s.auto with
      | true => simp [requestFor, request, hready, hauto]
      | false => simp [requestFor, request, hready, hauto] at hpending

theorem ready_of_drawn (h : (s.requestFor wanted).1 = .drawn) :
    s.ready = true ∧ (wanted = true ∨ s.auto = true) := by
  cases hready : s.ready with
  | false => cases wanted <;> simp [requestFor, request, drawNow, hready] at h
  | true =>
      cases wanted with
      | true => simp
      | false =>
          cases hauto : s.auto with
          | true => simp
          | false => simp [requestFor, request, hready, hauto] at h

end Scheduler

namespace Call

/-- The calls that neither compile nor draw. -/
def Topic.isPlain : Topic → Bool
  | .program | .frame => false
  | .view | .slots | .style => true

theorem verdict?_of_plain {c : Call α} (h : c.topic.isPlain = true) (compiler : Compiler) :
    c.verdict? compiler = none := by
  cases c with
  | compile source names => cases h
  | _ => rfl

theorem ne_redraw_of_plain {c : Call α} (h : c.topic.isPlain = true) : c ≠ .redraw := by
  rintro rfl
  cases h

/-- One frame at most, and nothing after it. -/
def OneFrame (cs : List (Call α)) : Prop :=
  ∃ ds, .redraw ∉ ds ∧ (cs = ds ∨ cs = ds ++ [.redraw])

theorem oneFrame_append {ds : List (Call α)} (h : .redraw ∉ ds) (o : Outcome) :
    OneFrame (ds ++ o.calls) := by
  cases o with
  | drawn => exact ⟨ds, h, Or.inr rfl⟩
  | deferred => exact ⟨ds, h, Or.inl (List.append_nil ds)⟩
  | suppressed => exact ⟨ds, h, Or.inl (List.append_nil ds)⟩

end Call

namespace Session

/-- Where a frame could be drawn and none is pending, the last call drew one. -/
def Fresh (s : Session α σ) (cs : List (Call α)) : Prop :=
  s.scheduler.ready = true → s.scheduler.pending = false → cs.getLast? = some .redraw

theorem fresh_of_request {s' : Session α σ} {log : List (Call α)} {scheduler : Scheduler}
    {asking : Bool} (hscheduler : s'.scheduler = (scheduler.requestFor asking).2)
    (ds : List (Call α)) :
    s'.Fresh (log ++ (ds ++ (scheduler.requestFor asking).1.calls)) := by
  intro hready hpending
  rw [hscheduler] at hready hpending
  rw [Scheduler.ready_requestFor] at hready
  rw [scheduler.drawn_of_settled asking hready hpending, ← List.append_assoc]
  exact List.getLast?_concat

end Session

variable [Scalar α]

theorem Registry.isPlain_slotCalls {r : Registry α} {c : Call α} (h : c ∈ r.slotCalls) :
    c.topic.isPlain = true := by
  rw [topic_slotCalls h]
  rfl

namespace Session

variable {compiler : Compiler} {event : Event α} {wanted : Bool} {s s' : Session α σ}
  {cs : List (Call α)}

/-- What an effect means for frames: nothing at all, a request after calls that are not about
frames, or a compilation. -/
inductive Framing (compiler : Compiler) (wanted : Bool) (s s' : Session α σ) :
    List (Call α) → Prop
  | quiet (hready : s'.scheduler.ready = s.scheduler.ready)
      (hpending : s'.scheduler.pending = s.scheduler.pending)
      (herror : s'.compileError = s.compileError) : Framing compiler wanted s s' []
  | asked (asking : Bool) (ds : List (Call α)) (hasking : asking = true → wanted = true)
      (hplain : ∀ d ∈ ds, d.topic.isPlain = true)
      (hscheduler : s'.scheduler = (s.scheduler.requestFor asking).2)
      (herror : s'.compileError = s.compileError) :
      Framing compiler wanted s s' (ds ++ (s.scheduler.requestFor asking).1.calls)
  | compiled {s₀ : Session α σ} {cs : List (Call α)} (hscheduler : s₀.scheduler = s.scheduler)
      (hc : s₀.Compilation compiler wanted s' cs) : Framing compiler wanted s s' cs

theorem Effect.framing (h : Effect compiler event s s' cs) :
    Framing compiler event.wantsFrame s s' cs := by
  have hnever : false = true → event.wantsFrame = true := fun h => by cases h
  cases h with
  | silent => exact .quiet rfl rfl rfl
  | auto b => exact .quiet rfl rfl rfl
  | preferred h => exact .quiet rfl rfl rfl
  | drawn h => exact .asked true [] (fun _ => h) (by simp) rfl rfl
  | @restyled style c h =>
      exact .asked false [c] hnever (by simp [h.topic, Call.Topic.isPlain]) rfl rfl
  | unseen hsize h => exact .quiet rfl rfl rfl
  | looked hsize h => exact .asked false [_] hnever (List.forall_mem_singleton.mpr rfl) rfl rfl
  | @surfaced v size h =>
      refine .asked false (v.calls size) hnever (fun d hd => ?_) rfl rfl
      rw [View.topic_calls hd]
      rfl
  | ranged h => exact .quiet rfl rfl rfl
  | revalued h => exact .asked false _ hnever (fun _ hd => Registry.isPlain_slotCalls hd) rfl rfl
  | dragged hsize h hi he =>
      exact .asked false [_] hnever (List.forall_mem_singleton.mpr rfl) rfl rfl
  | @compiled r s' cs h hc =>
      have hscheduler : { s with registry := r }.scheduler = s.scheduler := rfl
      exact .compiled hscheduler hc

theorem Compilation.fresh (h : s.Compilation compiler wanted s' cs) (log : List (Call α)) :
    s'.Fresh (log ++ cs) := by
  cases h with
  | accepted hv =>
      rw [List.append_cons]
      exact fresh_of_request rfl _
  | rejected hv =>
      intro hready
      cases hready

theorem Framing.fresh (h : Framing compiler wanted s s' cs) {log : List (Call α)}
    (hs : s.Fresh log) : s'.Fresh (log ++ cs) := by
  cases h with
  | quiet hready hpending herror =>
      intro hr hp
      rw [List.append_nil]
      exact hs (hready ▸ hr) (hpending ▸ hp)
  | asked asking ds hasking hplain hscheduler herror => exact fresh_of_request hscheduler ds
  | compiled hscheduler hc => exact hc.fresh log

theorem Compilation.oneFrame (h : s.Compilation compiler wanted s' cs) : Call.OneFrame cs := by
  have hslots : .redraw ∉ s.registry.slotCalls := fun hd =>
    Call.ne_redraw_of_plain (Registry.isPlain_slotCalls hd) rfl
  cases h with
  | accepted hv =>
      rw [List.append_cons]
      apply Call.oneFrame_append
      simpa using hslots
  | rejected hv => exact ⟨_, by simpa using hslots, Or.inl rfl⟩

theorem Framing.oneFrame (h : Framing compiler wanted s s' cs) : Call.OneFrame cs := by
  cases h with
  | quiet hready hpending herror => exact ⟨[], by simp, Or.inl rfl⟩
  | asked asking ds hasking hplain hscheduler herror =>
      exact Call.oneFrame_append (fun hd => Call.ne_redraw_of_plain (hplain _ hd) rfl) _
  | compiled hscheduler hc => exact hc.oneFrame

variable [KeyValueStore σ]

theorem handle_fresh (compiler : Compiler) (e : Event α) {log : List (Call α)}
    (hs : s.Fresh log) :
    (s.handle compiler e).session.Fresh (log ++ (s.handle compiler e).calls) := by
  rcases e.start_or_other with ⟨width, height, rfl⟩ | hother
  · -- The style is told without a request, and it is the compilation that makes up for it.
    obtain ⟨s₁, cs, ds, -, hc, hcalls⟩ := handle_start compiler s width height
    rw [hcalls, ← List.append_assoc]
    exact hc.fresh _
  · obtain ⟨s₁, s₂, h₁, heffect, h₂⟩ := handle_responds compiler s hother
    have hs₁ : s₁.Fresh log := by
      rw [Fresh, h₁.scheduler]
      exact hs
    have hs₂ := heffect.framing.fresh hs₁
    rw [Fresh, h₂.scheduler]
    exact hs₂

theorem handle_oneFrame (compiler : Compiler) (s : Session α σ) {e : Event α}
    (he : ∀ width height, e ≠ .start width height) :
    Call.OneFrame (s.handle compiler e).calls := by
  obtain ⟨s₁, s₂, -, heffect, -⟩ := handle_responds compiler s he
  exact heffect.framing.oneFrame

end Session

namespace Transcript

variable [KeyValueStore σ]

/-- No frame is stale: between events, where a program is ready and no frame is pending, nothing was
told to the plotter after the last frame. Every event but the start of the session draws at most one
frame, after everything else that it tells. -/
theorem run_frame_not_stale {store : σ} {settings : Settings α} {s : Session α σ}
    (hs : Session.ofSettings store settings = .ok s) (steps : List (Step α)) :
    let r := (ofSession s).run steps
    (r.session.scheduler.ready = true → r.session.scheduler.pending = false →
      r.calls.getLast? = some .redraw) ∧
    ∀ x : Step α, (∀ width height, x.event ≠ .start width height) →
      ∃ ds, .redraw ∉ ds ∧
        ((r.session.handle x.compiler x.event).calls = ds ∨
          (r.session.handle x.compiler x.event).calls = ds ++ [.redraw]) := by
  intro r
  obtain ⟨-, rfl⟩ := Session.ofSettings_eq_ok_iff.mp hs
  have hfresh : r.session.Fresh r.calls := by
    refine run_induction (P := fun r => r.session.Fresh r.calls) ?_ ?_ steps
    · intro r x hr
      rw [calls_step]
      exact Session.handle_fresh x.compiler x.event hr
    · intro hready
      cases hready
  exact ⟨hfresh, fun x hx => Session.handle_oneFrame x.compiler r.session hx⟩

/-- The style changes while drawing is not automatic, and the user draws. -/
theorem run_frame_not_stale_by_hand :
    let s : Session Float MemoryStore := Session.begun ⟨[]⟩ .initial
    let accepting : Compiler := fun _ _ => .accepted
    let steps : List (Step Float) :=
      [⟨accepting, .start 100 100⟩, ⟨accepting, .setAutoRedraw false⟩, ⟨accepting, .setGrid 1⟩,
        ⟨accepting, .redraw⟩]
    Session.ofSettings ⟨[]⟩ .initial = .ok s ∧
      ((ofSession s).run steps).session.scheduler = ⟨false, true, false⟩ ∧
      ((ofSession s).run steps).calls.getLast? = some .redraw := by
  intro s accepting steps
  have hs : Session.ofSettings ⟨[]⟩ .initial = .ok s :=
    Session.ofSettings_eq_ok_iff.mpr ⟨by decide +kernel, rfl⟩
  have hscheduler : ((ofSession s).run steps).session.scheduler = ⟨false, true, false⟩ := by
    decide +kernel
  refine ⟨hs, hscheduler, (run_frame_not_stale hs steps).1 ?_ ?_⟩
  · rw [hscheduler]
  · rw [hscheduler]

end Transcript

end PlotPane
