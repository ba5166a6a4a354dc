import Mathlib.Data.List.Induction
import PlotPane.Proofs.Frames
import PlotPane.Proofs.SlotMirror

/-!
# What is remembered as pending

The scheduler remembers that a frame was asked for and not drawn. A change asks for a frame when the
plotter is told of it, with one exception: where the expression is compiled anew and rejected,
nobody asks. So the flag is up exactly if since the last frame something was told that no rejected
compilation told. A variable that is added, taken out or renamed while the expression does not
compile is sent to the plotter and is not remembered.
-/

namespace PlotPane

variable {α σ : Type}

namespace Call

/-- What is told asks for a frame: something is told and no expression is rejected, or there are new
bounds, which ask before a session that starts compiles anything. -/
def Asks (compiler : Compiler) (cs : List (Call α)) : Prop :=
  (cs ≠ [] ∧ ∀ source names, .compile source names ∈ cs → compiler source names = .accepted) ∨
    ∃ b, .bounds b ∈ cs

variable {compiler : Compiler} {cs ds : List (Call α)}

theorem not_asks_nil : ¬ Asks compiler ([] : List (Call α)) := by
  simp [Asks]

theorem asks_of_plain (hne : cs ≠ []) (h : ∀ c ∈ cs, c.topic.isPlain = true) :
    Asks compiler cs := by
  refine Or.inl ⟨hne, ?_⟩
  intro source names hmem
  cases h _ hmem

theorem redraw_not_mem_of_plain (h : ∀ c ∈ cs, c.topic.isPlain = true) : .redraw ∉ cs :=
  fun hmem => ne_redraw_of_plain (h _ hmem) rfl

theorem asks_compile {source : String} {names : List String}
    (hplain : ∀ d ∈ ds, d.topic.isPlain = true) (h : compiler source names = .accepted) :
    Asks compiler (ds ++ [.compile source names]) := by
  refine Or.inl ⟨by simp, ?_⟩
  intro source' names' hmem
  rcases List.mem_append.mp hmem with hmem | hmem
  · cases hplain _ hmem
  · obtain ⟨rfl, rfl⟩ := Call.compile.inj (List.mem_singleton.mp hmem)
    exact h

theorem not_asks_rejected {source message : String} {names : List String}
    (h : compiler source names = .rejected message) (hmem : .compile source names ∈ ds)
    (hbounds : ∀ b, .bounds b ∉ ds) : ¬ Asks compiler ds := by
  rintro (⟨-, haccepted⟩ | ⟨b, hb⟩)
  · rw [haccepted source names hmem] at h
    cases h
  · exact hbounds b hb

/-- How the flag of a scheduler follows what is told. -/
structure Marks (compiler : Compiler) (s s' : Scheduler) (cs : List (Call α)) : Prop where
  drawn : .redraw ∈ cs → s'.pending = false
  undrawn : .redraw ∉ cs → (s'.pending = true ↔ s.pending = true ∨ Asks compiler cs)

variable {s s' : Scheduler}

theorem marks_nil (h : s'.pending = s.pending) : Marks compiler s s' ([] : List (Call α)) where
  drawn hmem := by cases hmem
  undrawn _ := by simp [h, not_asks_nil]

theorem marks_redraw (hpending : s'.pending = false) (hmem : .redraw ∈ cs) :
    Marks compiler s s' cs where
  drawn _ := hpending
  undrawn hdrawn := absurd hmem hdrawn

theorem marks_drawNow (s : Scheduler) :
    Marks compiler s s.drawNow.2 (s.drawNow.1.calls : List (Call α)) := by
  cases hready : s.ready with
  | false =>
      have heq : s.drawNow = (.suppressed, s) := by simp [Scheduler.drawNow, hready]
      rw [heq]
      exact marks_nil rfl
  | true =>
      have heq : s.drawNow = (.drawn, { s with pending := false }) := by
        simp [Scheduler.drawNow, hready]
      rw [heq]
      exact marks_redraw rfl (List.mem_singleton.mpr rfl)

theorem marks_request (s : Scheduler) {ds : List (Call α)} (hdrawn : .redraw ∉ ds)
    (hasks : Asks compiler ds) : Marks compiler s s.request.2 (ds ++ s.request.1.calls) := by
  have hwaits : ∀ o : Outcome, (o.calls : List (Call α)) = [] →
      Marks compiler s { s with pending := true } (ds ++ o.calls) := by
    intro o ho
    rw [ho, List.append_nil]
    exact ⟨fun h => absurd h hdrawn, fun _ => by simp [hasks]⟩
  rw [Scheduler.request]
  split
  · exact hwaits .suppressed rfl
  · split
    · exact hwaits .deferred rfl
    · exact marks_redraw rfl (List.mem_append_right ds (.head _))

theorem marks_plain (compiler : Compiler) (s : Scheduler) {ds : List (Call α)} (hne : ds ≠ [])
    (hplain : ∀ d ∈ ds, d.topic.isPlain = true) :
    Marks compiler s s.request.2 (ds ++ s.request.1.calls) :=
  marks_request s (redraw_not_mem_of_plain hplain) (asks_of_plain hne hplain)

/-- What nobody asks about leaves the flag as it is. -/
theorem marks_of_not_asks (hpending : s'.pending = s.pending) (hdrawn : .redraw ∉ cs)
    (hasks : ¬ Asks compiler cs) : Marks compiler s s' cs where
  drawn h := absurd h hdrawn
  undrawn _ := by simp [hpending, hasks]

/-- Between calls that are not about frames and a rejected expression, only the bounds ask. -/
theorem Marks.rejected {pre post : List (Call α)} {source message : String} {names : List String}
    (h : Marks compiler s s' cs) (hcs : cs = [] ∨ ∃ b, .bounds b ∈ cs)
    (hpre : .redraw ∉ pre ∧ ∀ b, .bounds b ∉ pre) (hpost : .redraw ∉ post ∧ ∀ b, .bounds b ∉ post)
    (hmem : .compile source names ∈ post) (hv : compiler source names = .rejected message) :
    Marks compiler s s' (pre ++ cs ++ post) := by
  have hdrawn : .redraw ∈ pre ++ cs ++ post ↔ .redraw ∈ cs := by simp [hpre.1, hpost.1]
  have hbounds (b : Bounds α) : .bounds b ∈ pre ++ cs ++ post ↔ .bounds b ∈ cs := by
    simp [hpre.2, hpost.2]
  have hasks : Asks compiler (pre ++ cs ++ post) ↔ Asks compiler cs := by
    rcases hcs with rfl | ⟨b, hb⟩
    · refine iff_of_false (not_asks_rejected hv (List.mem_append_right _ hmem) ?_) not_asks_nil
      intro b hb
      cases (hbounds b).mp hb
    · exact iff_of_true (Or.inr ⟨b, (hbounds b).mpr hb⟩) (Or.inr ⟨b, hb⟩)
  constructor
  · rw [hdrawn]
    exact h.drawn
  · rw [hdrawn, hasks]
    exact h.undrawn

end Call

variable [Scalar α]

theorem Scheduler.requestFor_setReady (s : Scheduler) :
    (s.setReady true).requestFor true = (.drawn, { s.setReady true with pending := false }) := rfl

theorem View.isPlain_calls (v : View α) {size : ScreenSize α} :
    ∀ c ∈ v.calls size, c.topic.isPlain = true := by
  intro c hc
  rw [topic_calls hc]
  rfl

theorem Registry.slotCalls_ne_nil {r : Registry α} (h : 0 < r.entries.length) :
    r.slotCalls ≠ [] := by
  rw [← List.length_pos_iff, slotCalls, List.length_map, List.length_zipIdx, length_slots]
  exact h

theorem Registry.bounds_not_mem_slotCalls (r : Registry α) (b : Bounds α) :
    .bounds b ∉ r.slotCalls := by
  intro hmem
  cases Registry.topic_slotCalls hmem

theorem Registry.redraw_not_mem_slotCalls (r : Registry α) : .redraw ∉ r.slotCalls :=
  Call.redraw_not_mem_of_plain fun _ h => Registry.isPlain_slotCalls h

theorem Registry.Revalued.nonempty {r r' : Registry α} {v : View α}
    {size : Option (ScreenSize α)} (h : r.Revalued v size r') : 0 < r'.entries.length := by
  have hupdate : ∀ {β : Type} {id : VariableId} {f : Entry α → Except VariableError (β × Entry α)}
      {b : β} {r₁ : Registry α}, r.update id f = .ok (b, r₁) → 0 < r₁.entries.length := by
    intro β id f b r₁ hok
    obtain ⟨i, e, e', -, he, -, -⟩ := update_eq_ok hok
    rw [length_update hok]
    exact Nat.zero_lt_of_lt (List.getElem?_eq_some_iff.mp he).1
  cases h with
  | typed h =>
      rw [length_placeMarkers]
      exact hupdate h
  | slid h => exact hupdate h

namespace Session

open Call

variable {compiler : Compiler} {event : Event α} {wanted : Bool} {s s' : Session α σ}
  {cs : List (Call α)}

theorem Compilation.marks (h : s.Compilation compiler wanted s' cs) :
    Marks compiler s.scheduler s'.scheduler cs := by
  have hslots := s.registry.redraw_not_mem_slotCalls
  have hbounds := s.registry.bounds_not_mem_slotCalls
  cases h with
  | accepted h =>
      cases wanted with
      | true =>
          rw [Scheduler.requestFor_setReady]
          exact marks_redraw rfl (by simp [Outcome.calls])
      | false =>
          have hredraw : .redraw ∉ s.registry.slotCalls ++
              [.compile s.source s.registry.names] := by
            simpa using hslots
          have hasks := asks_compile (fun _ hd => s.registry.isPlain_slotCalls hd) h
          have hrequest := marks_request (s.scheduler.setReady true) hredraw hasks
          rw [List.append_cons]
          exact ⟨hrequest.drawn, hrequest.undrawn⟩
  | rejected h =>
      refine marks_of_not_asks rfl (by simpa using hslots) (not_asks_rejected h (by simp) ?_)
      simpa using hbounds

theorem Effect.marks (h : Effect compiler event s s' cs) :
    Marks compiler s.scheduler s'.scheduler cs := by
  cases h with
  | silent => exact marks_nil rfl
  | auto b => exact marks_nil rfl
  | preferred h => exact marks_nil rfl
  | drawn h => exact marks_drawNow s.scheduler
  | @restyled style c h =>
      have hplain : ∀ d ∈ [c], d.topic.isPlain = true := by simp [h.topic, Call.Topic.isPlain]
      exact marks_plain compiler _ (List.cons_ne_nil _ _) hplain
  | unseen hsize h => exact marks_nil rfl
  | looked hsize h =>
      exact marks_plain compiler _ (List.cons_ne_nil _ []) (List.forall_mem_singleton.mpr rfl)
  | @surfaced v size h =>
      exact marks_plain compiler _ (List.cons_ne_nil _ _) v.isPlain_calls
  | ranged h => exact marks_nil rfl
  | revalued h =>
      exact marks_plain compiler _ (Registry.slotCalls_ne_nil h.nonempty)
        fun _ hd => Registry.isPlain_slotCalls hd
  | dragged hsize h hi he =>
      exact marks_plain compiler _ (List.cons_ne_nil _ []) (List.forall_mem_singleton.mpr rfl)
  | compiled h hc => exact hc.marks

theorem Responds.marks (h : s.Responds compiler event s' cs) :
    Marks compiler s.scheduler s'.scheduler cs := by
  obtain ⟨s₁, s₂, h₁, heffect, h₂⟩ := h
  rw [← h₁.scheduler, h₂.scheduler]
  exact heffect.marks

/-- Where an expression is rejected, the last compilation is followed by plain calls only, and if
there are any the flag is up. -/
def Halted (s : Session α σ) (cs : List (Call α)) : Prop :=
  s.compileError ≠ none → s.scheduler.ready = false ∧
    ∃ told source names since, cs = told ++ .compile source names :: since ∧
      (∀ c ∈ since, c.topic.isPlain = true) ∧ (since ≠ [] → s.scheduler.pending = true)

theorem Compilation.halted (h : s.Compilation compiler wanted s' cs) (log : List (Call α)) :
    s'.Halted (log ++ cs) := by
  cases h with
  | accepted h => exact fun herror => absurd rfl herror
  | rejected h =>
      intro herror
      refine ⟨rfl, log ++ s.registry.slotCalls, s.source, s.registry.names, [], by simp, by simp,
        ?_⟩
      exact fun hne => absurd rfl hne

theorem Effect.halted {log : List (Call α)} (h : Effect compiler event s s' cs)
    (hs : s.Halted log) : s'.Halted (log ++ cs) := by
  have hmarks := h.marks
  cases h.framing with
  | quiet hready hpending herror =>
      rw [Halted, List.append_nil, herror, hready, hpending]
      exact hs
  | asked asking ds hasking hplain hscheduler herror =>
      intro he
      obtain ⟨hready, told, source, names, since, rfl, hsince, hpending⟩ := hs (herror ▸ he)
      -- Without a program nothing is drawn.
      have hcalls : ((s.scheduler.requestFor asking).1.calls : List (Call α)) = [] := by
        cases asking <;>
          simp [Scheduler.requestFor, Scheduler.request, Scheduler.drawNow, hready, Outcome.calls]
      rw [hcalls, List.append_nil] at hmarks ⊢
      refine ⟨?_, told, source, names, since ++ ds, by simp, ?_, ?_⟩
      · rw [hscheduler, Scheduler.ready_requestFor, hready]
      · exact List.forall_mem_append.mpr ⟨hsince, hplain⟩
      · intro hne
        rw [hmarks.undrawn (redraw_not_mem_of_plain hplain)]
        by_cases hds : ds = []
        · rw [hds, List.append_nil] at hne
          exact Or.inl (hpending hne)
        · exact Or.inr (asks_of_plain hds hplain)
  | compiled hscheduler hc => exact hc.halted log

end Session

/-- A resize asks for a frame by the bounds that it tells, if it tells anything. -/
theorem Turn.marks_resize (compiler : Compiler) (t : Turn α σ) (width height : α) :
    ∃ cs, (t.resize width height).calls = t.calls ++ cs ∧
      Call.Marks compiler t.session.scheduler (t.resize width height).session.scheduler cs ∧
      (cs = [] ∨ ∃ b, .bounds b ∈ cs) := by
  rw [resize]
  cases ScreenSize.ofSides width height with
  | error err => exact ⟨[], (List.append_nil _).symm, Call.marks_nil rfl, Or.inl rfl⟩
  | ok size =>
      let sized := t.update fun s => { s with size := some size }
      have hsized : sized.session.size = some size := rfl
      have hsurface := callSurface_of_some hsized
      have hkept : sized.callSurface.session.size = some size := by rw [hsurface]; exact hsized
      obtain ⟨hsession, hcalls⟩ := viewChanged_of_some hkept
      refine ⟨t.session.view.calls size ++ t.session.scheduler.request.1.calls, ?_, ?_, ?_⟩
      · refine hcalls.trans ?_
        rw [hsurface]
        exact List.append_assoc t.calls _ _
      · have hscheduler : sized.callSurface.viewChanged.session.scheduler =
            t.session.scheduler.request.2 := by
          rw [hsession, hsurface]
          rfl
        change Call.Marks compiler _ sized.callSurface.viewChanged.session.scheduler _
        rw [hscheduler]
        exact Call.marks_plain compiler _ (List.cons_ne_nil _ _) t.session.view.isPlain_calls
      · have hmem : .bounds (t.session.view.bounds size) ∈ t.session.view.calls size := by
          simp [View.calls]
        exact Or.inr ⟨_, List.mem_append_left _ hmem⟩

namespace Session

open Call

variable [KeyValueStore σ]

/-- The style is told without a request. If the expression is rejected, the flag is up for the
screen alone. -/
theorem marks_start (compiler : Compiler) (s : Session α σ) (width height : α) :
    Marks compiler s.scheduler (s.handle compiler (.start width height)).session.scheduler
      (s.handle compiler (.start width height)).calls := by
  let styled := ((Turn.ofSession s).call s.style.calls).tell [.themeChanged s.theme]
  obtain ⟨cs, hcs, hmarks, hbounds⟩ := styled.marks_resize compiler width height
  obtain ⟨ds, a, hds, -, -, hc⟩ := Turn.compile_eq compiler true (styled.resize width height)
  have hstyled : styled.calls = s.style.calls := rfl
  rw [hcs, hstyled] at hds
  change Marks compiler s.scheduler
    ((styled.resize width height).compile compiler true).session.scheduler
    ((styled.resize width height).compile compiler true).calls
  rw [hds]
  have hstyle : .redraw ∉ s.style.calls ∧ ∀ b, .bounds b ∉ s.style.calls := by
    constructor
    · intro hmem
      cases Style.topic_calls hmem
    · intro b hmem
      cases Style.topic_calls hmem
  have hslots := (styled.resize width height).session.registry.redraw_not_mem_slotCalls
  have hslots' := (styled.resize width height).session.registry.bounds_not_mem_slotCalls
  generalize ((styled.resize width height).compile compiler true).session = s' at hc ⊢
  cases hc with
  | accepted h =>
      rw [Scheduler.requestFor_setReady]
      exact marks_redraw rfl (by simp [Outcome.calls])
  | rejected h =>
      have hpending : Marks compiler s.scheduler
          ((styled.resize width height).session.scheduler.setReady false) cs :=
        ⟨hmarks.drawn, hmarks.undrawn⟩
      exact hpending.rejected hbounds hstyle (by simpa using ⟨hslots, hslots'⟩) (by simp) h

theorem handle_marks (compiler : Compiler) (s : Session α σ) (e : Event α) :
    Marks compiler s.scheduler (s.handle compiler e).session.scheduler
      (s.handle compiler e).calls := by
  rcases e.start_or_other with ⟨width, height, rfl⟩ | hother
  · exact s.marks_start compiler width height
  · exact (handle_responds compiler s hother).marks

theorem Halted.handle {s : Session α σ} {log : List (Call α)} (h : s.Halted log)
    (compiler : Compiler) (e : Event α) :
    (s.handle compiler e).session.Halted (log ++ (s.handle compiler e).calls) := by
  rcases e.start_or_other with ⟨width, height, rfl⟩ | hother
  · obtain ⟨s₁, cs, ds, -, hc, hcalls⟩ := handle_start compiler s width height
    rw [hcalls, ← List.append_assoc]
    exact hc.halted _
  · obtain ⟨s₁, s₂, h₁, heffect, h₂⟩ := handle_responds compiler s hother
    have hs₁ : s₁.Halted log := by
      rw [Halted, h₁.scheduler, h₁.compileError]
      exact h
    have hs₂ := heffect.halted hs₁
    rw [Halted, h₂.scheduler, h₂.compileError]
    exact hs₂

end Session

namespace Transcript

variable [KeyValueStore σ]

/-- What the plotter is told in the course of some steps. -/
def told (r : Transcript α σ) : List (Step α) → List (Call α)
  | [] => []
  | x :: xs => (r.session.handle x.compiler x.event).calls ++ (r.step x).told xs

theorem told_append (r : Transcript α σ) (xs ys : List (Step α)) :
    r.told (xs ++ ys) = r.told xs ++ (r.run xs).told ys := by
  induction xs generalizing r with
  | nil => rfl
  | cons x xs ih => rw [List.cons_append, told, ih, told, run_cons, List.append_assoc]

/-- A step asked for a frame, and none has been drawn since. -/
def Waits (r : Transcript α σ) (xs : List (Step α)) : Prop :=
  ∃ before x after, xs = before ++ x :: after ∧
    Call.Asks x.compiler ((r.run before).session.handle x.compiler x.event).calls ∧
    .redraw ∉ (r.run before).told (x :: after)

theorem not_waits_nil (r : Transcript α σ) : ¬ r.Waits [] := by
  rintro ⟨before, x, after, h, -⟩
  simp at h

theorem waits_concat_iff (r : Transcript α σ) (xs : List (Step α)) (x : Step α) :
    r.Waits (xs ++ [x]) ↔ .redraw ∉ ((r.run xs).session.handle x.compiler x.event).calls ∧
      (r.Waits xs ∨
        Call.Asks x.compiler ((r.run xs).session.handle x.compiler x.event).calls) := by
  have hlast : (r.run xs).told [x] = ((r.run xs).session.handle x.compiler x.event).calls :=
    List.append_nil _
  constructor
  · rintro ⟨before, y, after, hsplit, hasks, hdrawn⟩
    rcases List.eq_nil_or_concat after with rfl | ⟨after', z, rfl⟩
    · -- It is the last step that asks.
      obtain ⟨rfl, hyx⟩ := List.append_inj' hsplit rfl
      obtain ⟨rfl, -⟩ := List.cons.inj hyx
      rw [hlast] at hdrawn
      exact ⟨hdrawn, Or.inr hasks⟩
    · rw [List.concat_eq_append, ← List.cons_append, ← List.append_assoc] at hsplit
      obtain ⟨rfl, hzx⟩ := List.append_inj' hsplit rfl
      obtain ⟨rfl, -⟩ := List.cons.inj hzx
      rw [List.concat_eq_append, ← List.cons_append, told_append, List.mem_append, not_or] at hdrawn
      rw [← hlast, run_append]
      exact ⟨hdrawn.2, Or.inl ⟨before, y, after', rfl, hasks, hdrawn.1⟩⟩
  · rintro ⟨hdrawn, hwaits | hasks⟩
    · obtain ⟨before, y, after, rfl, hasks, hbefore⟩ := hwaits
      refine ⟨before, y, after ++ [x], by simp, hasks, ?_⟩
      rw [← List.cons_append, told_append, List.mem_append, not_or]
      rw [← hlast, run_append] at hdrawn
      exact ⟨hbefore, hdrawn⟩
    · exact ⟨xs, x, [], rfl, hasks, hlast ▸ hdrawn⟩

/-- From a session in which nothing is pending on, the flag is up exactly if a step waits. -/
theorem pending_run_iff {r : Transcript α σ} (h : r.session.scheduler.pending = false)
    (xs : List (Step α)) : (r.run xs).session.scheduler.pending = true ↔ r.Waits xs := by
  induction xs using List.reverseRecOn with
  | nil => exact iff_of_false (by simp [h]) r.not_waits_nil
  | append_singleton xs x ih =>
      have hmarks := (r.run xs).session.handle_marks x.compiler x.event
      rw [waits_concat_iff, ← ih, run_append]
      by_cases hdrawn : .redraw ∈ ((r.run xs).session.handle x.compiler x.event).calls
      · refine iff_of_false ?_ (fun hwaits => hwaits.1 hdrawn)
        rw [Bool.not_eq_true]
        exact hmarks.drawn hdrawn
      · rw [and_iff_right hdrawn]
        exact hmarks.undrawn hdrawn

/-- In every reachable state the flag is up exactly if since the last frame an event asked for one:
it told the plotter something and no expression was rejected, or it told new bounds. Where the
expression does not compile, the names are those that went with the last compilation, and what was
told after it, such as the value of a slot, has put the flag up. -/
theorem run_pending_iff_waits {store : σ} {settings : Settings α} {s : Session α σ}
    (hs : Session.ofSettings store settings = .ok s) (steps : List (Step α)) :
    let r := (ofSession s).run steps
    (r.session.scheduler.pending = true ↔ (ofSession s).Waits steps) ∧
    (r.session.compileError ≠ none →
      ∃ told source since, r.calls = told ++ .compile source r.session.registry.names :: since ∧
        (∀ c ∈ since, c ≠ .redraw ∧ ∀ source names, c ≠ .compile source names) ∧
        (since ≠ [] → r.session.scheduler.pending = true)) := by
  intro r
  obtain ⟨-, rfl⟩ := Session.ofSettings_eq_ok_iff.mp hs
  refine ⟨pending_run_iff rfl steps, ?_⟩
  intro herror
  have hhalted : r.session.Halted r.calls := by
    refine run_induction (P := fun r => r.session.Halted r.calls) ?_ ?_ steps
    · intro r x hr
      rw [calls_step]
      exact hr.handle x.compiler x.event
    · exact fun herror => absurd rfl herror
  have hsent : r.session.registry.SentBy r.calls := sentBy_run Registry.sentBy_nil steps
  obtain ⟨-, told, source, names, since, hcalls, hplain, hpending⟩ := hhalted herror
  have hnames : Call.lastOf Call.names? r.calls = some names := by
    have hsince : Call.lastOf Call.names? since = none := by
      rw [Call.lastOf_eq_none_iff]
      intro c hc
      apply Call.names?_of_topic
      intro htopic
      have hc' := hplain c hc
      rw [htopic] at hc'
      cases hc'
    rw [hcalls, Call.lastOf_append, Call.lastOf_cons, hsince]
    rfl
  refine ⟨told, source, since, ?_, ?_, hpending⟩
  · rw [← hsent.names names hnames]
    exact hcalls
  · intro c hc
    refine ⟨Call.ne_redraw_of_plain (hplain c hc), ?_⟩
    rintro source names rfl
    cases hplain _ hc

/-- A variable is added while the expression does not compile, and then its value changes. -/
theorem run_pending_iff_waits_slid :
    let accepting : Compiler := fun _ _ => .accepted
    let rejecting : Compiler := fun _ _ => .rejected "bad"
    let s : Session Float MemoryStore := .begun ⟨[]⟩ .initial
    let early : List (Step Float) :=
      [⟨accepting, .start 100.0 100.0⟩, ⟨rejecting, .addSlider "a" .initial⟩]
    let steps := early ++ [⟨rejecting, .slideVariable ⟨0⟩ 0.5⟩, ⟨rejecting, .redraw⟩]
    Session.ofSettings ⟨[]⟩ .initial = .ok s ∧ ¬ (ofSession s).Waits early ∧
      (ofSession s).Waits steps ∧
      ∃ told source since, ((ofSession s).run steps).calls =
        told ++ .compile source ["a"] :: since := by
  intro accepting rejecting s early steps
  have hs : Session.ofSettings ⟨[]⟩ .initial = .ok s :=
    Session.ofSettings_eq_ok_iff.mpr ⟨by decide +kernel, rfl⟩
  have hearly : ((ofSession s).run early).session.scheduler.pending = false := by decide +kernel
  have hlate : ((ofSession s).run steps).session.scheduler.pending = true := by decide +kernel
  have herror : ((ofSession s).run steps).session.compileError = some "bad" := by decide +kernel
  have hnames : ((ofSession s).run steps).session.registry.names = ["a"] := by decide +kernel
  -- From here on the runs are known by these facts only.
  clear_value s early steps
  obtain ⟨hwaits, -⟩ := run_pending_iff_waits hs early
  obtain ⟨hwaits', hcalls⟩ := run_pending_iff_waits hs steps
  obtain ⟨told, source, since, hsplit, -, -⟩ := hcalls (by simp [herror])
  refine ⟨hs, ?_, hwaits'.mp hlate, told, source, since, ?_⟩
  · intro h
    rw [hwaits.mpr h] at hearly
    cases hearly
  · rw [hsplit, hnames]

/-- The names that the plotter has are not those of the last frame, or there is a variable and no
frame yet, and nothing is pending. -/
theorem rejected_addition_not_pending :
    let accepting : Compiler := fun _ _ => .accepted
    let rejecting : Compiler := fun _ _ => .rejected "bad"
    let s : Session Float MemoryStore := .begun ⟨[]⟩ .initial
    let drawn := (ofSession s).run [⟨accepting, .start 100.0 100.0⟩]
    let late : List (Step Float) :=
      [⟨rejecting, .setSource "error:bad"⟩, ⟨rejecting, .addSlider "a" .initial⟩]
    Session.ofSettings ⟨[]⟩ .initial = .ok s ∧
      (drawn.calls.getLast? = some .redraw ∧ Call.lastOf Call.names? drawn.calls = some [] ∧
        .redraw ∉ drawn.told late ∧
        (drawn.run late).session.compileError = some "bad" ∧
        Call.lastOf Call.names? (drawn.run late).calls = some ["a"] ∧
        (drawn.run late).session.scheduler.pending = false) ∧
      (.redraw ∉ ((ofSession s).run late).calls ∧
        ((ofSession s).run late).session.compileError = some "bad" ∧
        ((ofSession s).run late).session.registry.names = ["a"] ∧
        ((ofSession s).run late).session.scheduler.pending = false) := by
  intro accepting rejecting s drawn late
  refine ⟨Session.ofSettings_eq_ok_iff.mpr ⟨by decide +kernel, rfl⟩, ?_, ?_⟩
  · refine ⟨?_, ?_, ?_, ?_, ?_, ?_⟩ <;> decide +kernel
  · refine ⟨?_, ?_, ?_, ?_⟩ <;> decide +kernel

end Transcript

end PlotPane
