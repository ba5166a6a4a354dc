import PlotPane.Proofs.Frames

/-!
# Verdicts

Of all verdicts of the plotter a session keeps the last: whether a program is ready, and if it is
not, what was wrong with the expression. Both agree with the log after every event, and no frame in
the log comes after a verdict that rejected the expression.
-/

namespace PlotPane

variable {α σ : Type}

namespace Told

variable {log : List (Told α)} {cs : List (Call α)} {compiler : Compiler}

theorem lastVerdict?_append_none {more : List (Told α)} (h : ∀ t ∈ more, t.verdict = none) :
    lastVerdict? (log ++ more) = lastVerdict? log := by
  have hmore : more.filterMap Told.verdict = [] := List.filterMap_eq_nil_iff.mpr h
  rw [lastVerdict?_append]
  simp [lastVerdict?, hmore]

theorem lastVerdict?_append_plain (h : ∀ c ∈ cs, c.topic.isPlain = true) :
    lastVerdict? (log ++ cs.map (Call.told compiler)) = lastVerdict? log := by
  apply lastVerdict?_append_none
  intro t ht
  obtain ⟨c, hc, rfl⟩ := List.mem_map.mp ht
  exact Call.verdict?_of_plain (h c hc) compiler

theorem lastVerdict?_append_drawn (o : Outcome) :
    lastVerdict? (log ++ o.calls.map (Call.told compiler)) = lastVerdict? log := by
  apply lastVerdict?_append_none
  intro t ht
  obtain ⟨c, hc, rfl⟩ := List.mem_map.mp ht
  rw [Outcome.eq_redraw_of_mem_calls hc]
  rfl

theorem lastVerdict?_concat_compile (source : String) (names : List String) :
    lastVerdict? (log ++ [Call.told compiler (.compile source names)]) =
      some (compiler source names) := by
  rw [lastVerdict?_append]
  rfl

/-- At every frame the last verdict before it accepted the expression. -/
def FramesAccepted (log : List (Told α)) : Prop :=
  ∀ before t after, log = before ++ t :: after → t.call = .redraw →
    lastVerdict? before = some .accepted

theorem framesAccepted_nil : FramesAccepted ([] : List (Told α)) := by
  intro before t after h
  simp at h

theorem framesAccepted_concat {t : Told α} (h : FramesAccepted log)
    (ht : t.call = .redraw → lastVerdict? log = some .accepted) :
    FramesAccepted (log ++ [t]) := by
  intro before u after heq hu
  rcases List.eq_nil_or_concat after with rfl | ⟨rest, v, rfl⟩
  · -- The frame is the call that came last.
    obtain ⟨rfl, hsingle⟩ := List.append_inj' heq rfl
    obtain rfl : t = u := by simpa using hsingle
    exact ht hu
  · have heq' : log ++ [t] = (before ++ u :: rest) ++ [v] := by simpa using heq
    obtain ⟨hlog, -⟩ := List.append_inj' heq' rfl
    exact h before u rest hlog hu

theorem FramesAccepted.append_plain (h : FramesAccepted log)
    (hplain : ∀ c ∈ cs, c.topic.isPlain = true) :
    FramesAccepted (log ++ cs.map (Call.told compiler)) := by
  induction cs generalizing log with
  | nil => simpa using h
  | cons c cs ih =>
      have hc : (Call.told compiler c).call ≠ .redraw :=
        Call.ne_redraw_of_plain (hplain c (by simp))
      rw [List.map_cons, List.append_cons]
      apply ih
      · exact framesAccepted_concat h fun hredraw => absurd hredraw hc
      · exact fun d hd => hplain d (List.mem_cons_of_mem c hd)

theorem FramesAccepted.append_drawn (h : FramesAccepted log) {o : Outcome}
    (ho : o = .drawn → lastVerdict? log = some .accepted) :
    FramesAccepted (log ++ o.calls.map (Call.told compiler)) := by
  cases o with
  | drawn => exact framesAccepted_concat h fun _ => ho rfl
  | deferred => simpa [Outcome.calls] using h
  | suppressed => simpa [Outcome.calls] using h

end Told

theorem Outcome.eq_drawn_of_mem_calls {o : Outcome} {c : Call α} (h : c ∈ o.calls) :
    o = .drawn := by
  cases o with
  | drawn => rfl
  | deferred => cases h
  | suppressed => cases h

theorem Turn.exists_not_blank_shown (message : String) :
    ∃ c ∈ (if Text.allBlank message then Turn.fallbackMessage else message).toList,
      Text.isBlank c = false := by
  split
  · exact ⟨'c', by decide, by decide⟩
  · next h =>
      have hall : message.toList.all Text.isBlank = false := by simpa [Text.allBlank] using h
      simpa using List.all_eq_false.mp hall

namespace Session

/-- The session agrees with the log on what the plotter last said. -/
structure Judged (s : Session α σ) (log : List (Told α)) : Prop where
  ready : s.scheduler.ready = true ↔ Told.lastVerdict? log = some .accepted
  failed : s.compileError.isSome = true ↔
    ∃ message, Told.lastVerdict? log = some (.rejected message)
  shown : ∀ message, s.compileError = some message →
    ∃ c ∈ message.toList, Text.isBlank c = false
  frames : Told.FramesAccepted log

variable {compiler : Compiler} {wanted : Bool} {s s' : Session α σ} {cs : List (Call α)}
  {log : List (Told α)}

theorem judged_nil (hready : s.scheduler.ready = false) (herror : s.compileError = none) :
    s.Judged [] where
  ready := by simp [hready, Told.lastVerdict?]
  failed := by simp [herror, Told.lastVerdict?]
  shown message h := by simp [herror] at h
  frames := Told.framesAccepted_nil

theorem judged_accepted (hready : s.scheduler.ready = true) (herror : s.compileError = none)
    (hlast : Told.lastVerdict? log = some .accepted) (hframes : Told.FramesAccepted log) :
    s.Judged log where
  ready := by simp [hready, hlast]
  failed := by simp [herror, hlast]
  shown message h := by simp [herror] at h
  frames := hframes

theorem judged_rejected {message shown : String} (hready : s.scheduler.ready = false)
    (herror : s.compileError = some shown) (hshown : ∃ c ∈ shown.toList, Text.isBlank c = false)
    (hlast : Told.lastVerdict? log = some (.rejected message))
    (hframes : Told.FramesAccepted log) : s.Judged log where
  ready := by simp [hready, hlast]
  failed := by simp [herror, hlast]
  shown text h := by
    obtain rfl : shown = text := Option.some.inj (herror.symm.trans h)
    exact hshown
  frames := hframes

theorem Judged.congr (h : s.Judged log) (hready : s'.scheduler.ready = s.scheduler.ready)
    (herror : s'.compileError = s.compileError) : s'.Judged log where
  ready := hready ▸ h.ready
  failed := herror ▸ h.failed
  shown := herror ▸ h.shown
  frames := h.frames

theorem Judged.append_plain (h : s.Judged log) (hplain : ∀ c ∈ cs, c.topic.isPlain = true) :
    s.Judged (log ++ cs.map (Call.told compiler)) := by
  have hlast : Told.lastVerdict? (log ++ cs.map (Call.told compiler)) = Told.lastVerdict? log :=
    Told.lastVerdict?_append_plain hplain
  exact ⟨hlast ▸ h.ready, hlast ▸ h.failed, h.shown, h.frames.append_plain hplain⟩

theorem Judged.append_request (h : s.Judged log) {scheduler : Scheduler} {asking : Bool}
    (hready : scheduler.ready = s.scheduler.ready) :
    s.Judged (log ++ (scheduler.requestFor asking).1.calls.map (Call.told compiler)) := by
  have hlast : Told.lastVerdict?
      (log ++ (scheduler.requestFor asking).1.calls.map (Call.told compiler)) =
        Told.lastVerdict? log :=
    Told.lastVerdict?_append_drawn _
  refine ⟨hlast ▸ h.ready, hlast ▸ h.failed, h.shown, h.frames.append_drawn ?_⟩
  -- A frame needs a program, and there is one only after it was accepted.
  intro hdrawn
  have hprogram := (scheduler.ready_of_drawn asking hdrawn).1
  exact h.ready.mp (hready ▸ hprogram)

variable [Scalar α]

theorem Compilation.judged (hc : s.Compilation compiler wanted s' cs)
    (h : Told.FramesAccepted log) : s'.Judged (log ++ cs.map (Call.told compiler)) := by
  let sent := log ++ s.registry.slotCalls.map (Call.told compiler)
  let told := Call.told compiler (.compile s.source s.registry.names : Call α)
  have hsent : Told.FramesAccepted sent := h.append_plain fun _ hd => Registry.isPlain_slotCalls hd
  have hframes : Told.FramesAccepted (sent ++ [told]) :=
    Told.framesAccepted_concat hsent fun hcall => by cases hcall
  -- Whatever the session kept before, the verdict of this compilation is the last.
  have hlast : Told.lastVerdict? (sent ++ [told]) =
      some (compiler s.source s.registry.names) :=
    Told.lastVerdict?_concat_compile s.source s.registry.names
  cases hc with
  | accepted hv =>
      rw [List.map_append, List.map_cons, ← List.append_assoc, List.append_cons]
      refine (judged_accepted ?_ rfl (hv ▸ hlast) hframes).append_request ?_
      · simp [Scheduler.setReady]
      · simp
  | @rejected message hv =>
      rw [List.map_append, ← List.append_assoc]
      exact judged_rejected rfl rfl (Turn.exists_not_blank_shown message) (hv ▸ hlast) hframes

theorem Framing.judged (hf : Framing compiler wanted s s' cs) (h : s.Judged log) :
    s'.Judged (log ++ cs.map (Call.told compiler)) := by
  cases hf with
  | quiet hready hpending herror => simpa using h.congr hready herror
  | asked asking ds hasking hplain hscheduler herror =>
      have hready : s'.scheduler.ready = s.scheduler.ready := by
        rw [hscheduler, Scheduler.ready_requestFor]
      rw [List.map_append, ← List.append_assoc]
      exact ((h.append_plain hplain).append_request rfl).congr hready herror
  | compiled hscheduler hc => exact hc.judged h.frames

theorem Framing.redraw_mem (hf : Framing compiler wanted s s' cs) (h : .redraw ∈ cs) :
    wanted = true ∨ s.scheduler.auto = true := by
  cases hf with
  | quiet hready hpending herror => cases h
  | asked asking ds hasking hplain hscheduler herror =>
      rcases List.mem_append.mp h with hd | ho
      · exact absurd rfl (Call.ne_redraw_of_plain (hplain _ hd))
      · have hdrawn := Outcome.eq_drawn_of_mem_calls ho
        rcases (s.scheduler.ready_of_drawn asking hdrawn).2 with hasked | hauto
        · exact Or.inl (hasking hasked)
        · exact Or.inr hauto
  | @compiled s₀ cs hscheduler hc =>
      have hslots : .redraw ∉ s₀.registry.slotCalls := fun hd =>
        Call.ne_redraw_of_plain (Registry.isPlain_slotCalls hd) rfl
      rw [← hscheduler]
      cases hc with
      | accepted hv =>
          have ho : (.redraw : Call α) ∈
              (Scheduler.requestFor wanted (s₀.scheduler.setReady true)).1.calls := by
            simpa [hslots] using h
          exact (Scheduler.ready_of_drawn _ _ (Outcome.eq_drawn_of_mem_calls ho)).2
      | rejected hv => simp [hslots] at h

variable [KeyValueStore σ]

theorem handle_redraw_mem (compiler : Compiler) {s : Session α σ} {e : Event α}
    (hauto : s.scheduler.auto = false) (h : .redraw ∈ (s.handle compiler e).calls) :
    (∃ width height, e = .start width height) ∨ e = .graph ∨ e = .redraw := by
  rcases e.start_or_other with hstart | hother
  · exact Or.inl hstart
  · obtain ⟨s₁, s₂, h₁, heffect, -⟩ := handle_responds compiler s hother
    have hwanted : e.wantsFrame = true := by
      rcases heffect.framing.redraw_mem h with hw | ha
      · exact hw
      · rw [h₁.scheduler, hauto] at ha
        cases ha
    cases e with
    | graph => exact Or.inr (Or.inl rfl)
    | redraw => exact Or.inr (Or.inr rfl)
    | start width height => exact Or.inl ⟨width, height, rfl⟩
    | _ => cases hwanted

end Session

namespace Transcript

variable [Scalar α] [KeyValueStore σ]

theorem judged_run {r : Transcript α σ} (h : r.session.Judged r.log) (steps : List (Step α)) :
    (r.run steps).session.Judged (r.run steps).log := by
  refine run_keeps (P := fun s log => s.Judged log) ?_ ?_ ?_ h steps
  · intro s s' log haside hs
    exact hs.congr (by rw [haside.scheduler]) haside.compileError
  · intro compiler event s s' cs log heffect hs
    exact heffect.framing.judged hs
  · intro compiler s log hs
    refine hs.append_plain fun c hc => ?_
    rw [Style.topic_calls hc]
    rfl

/-- Over a whole run the frames follow the verdicts. Every frame comes after a compilation, and the
nearest one before it succeeded; a program is ready exactly if the last compilation succeeded; a
message is kept exactly if it failed, and then the message is not blank; and while drawing is not
automatic a frame is drawn only by the start, by a compilation that the user asks for, and by the
wish for a frame. -/
theorem run_frames_follow_verdicts {store : σ} {settings : Settings α} {s : Session α σ}
    (hs : Session.ofSettings store settings = .ok s) (steps : List (Step α)) :
    let r := (ofSession s).run steps
    (∀ before t after, r.log = before ++ t :: after → t.call = .redraw →
      Told.lastVerdict? before = some .accepted) ∧
    (r.session.scheduler.ready = true ↔ Told.lastVerdict? r.log = some .accepted) ∧
    (r.session.compileError.isSome = true ↔
      ∃ message, Told.lastVerdict? r.log = some (.rejected message)) ∧
    (∀ message, r.session.compileError = some message →
      ∃ c ∈ message.toList, Text.isBlank c = false) ∧
    ∀ x : Step α, r.session.scheduler.auto = false →
      .redraw ∈ (r.session.handle x.compiler x.event).calls →
      (∃ width height, x.event = .start width height) ∨ x.event = .graph ∨ x.event = .redraw := by
  intro r
  obtain ⟨-, rfl⟩ := Session.ofSettings_eq_ok_iff.mp hs
  have hr : r.session.Judged r.log := judged_run (Session.judged_nil rfl rfl) steps
  exact ⟨hr.frames, hr.ready, hr.failed, hr.shown,
    fun x hauto hredraw => Session.handle_redraw_mem x.compiler hauto hredraw⟩

/-- A variable is added and the expression no longer compiles, for no stated reason. The frame from
before stays, and it was drawn from an accepted expression. -/
theorem run_frames_follow_verdicts_unexplained :
    let s : Session Float MemoryStore := Session.begun ⟨[]⟩ .initial
    let steps : List (Step Float) :=
      [⟨fun _ _ => .accepted, .start 100 100⟩, ⟨fun _ _ => .rejected " ", .addSlider "a" .initial⟩,
        ⟨fun _ _ => .accepted, .setGrid 1⟩]
    let r := (ofSession s).run steps
    Session.ofSettings ⟨[]⟩ .initial = .ok s ∧
      r.log[9]? = some ⟨.redraw, none⟩ ∧ Told.lastVerdict? (r.log.take 9) = some .accepted ∧
      r.session.compileError.isSome = true ∧
      ∃ message, Told.lastVerdict? r.log = some (.rejected message) := by
  intro s steps r
  have hs : Session.ofSettings ⟨[]⟩ .initial = .ok s :=
    Session.ofSettings_eq_ok_iff.mpr ⟨by decide +kernel, rfl⟩
  have hframe : r.log = r.log.take 9 ++ ⟨.redraw, none⟩ :: r.log.drop 10 := by decide +kernel
  have herror : r.session.compileError.isSome = true := by decide +kernel
  obtain ⟨haccepted, -, hfailed, -⟩ := run_frames_follow_verdicts hs steps
  exact ⟨hs, by decide +kernel, haccepted _ _ _ hframe rfl, herror, hfailed.mp herror⟩

end Transcript

end PlotPane
