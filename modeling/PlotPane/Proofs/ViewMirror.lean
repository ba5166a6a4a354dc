import PlotPane.Number.Double
import PlotPane.Proofs.Answers
import PlotPane.Proofs.Rounding

/-!
# The plotter knows the view and the style

As soon as there is a screen, the plotter has the bounds, the resolution and the surface that belong
to the view; before that it has heard of none of them. It has the style from the start of the
session on. A call replaces only what an earlier call of its kind has told, so each kind is followed
through the log by itself.
-/

namespace PlotPane

variable {α σ : Type}

namespace Call

/-- Of the calls of its kind, `d` is the last. -/
def Stands (d : Call α) (cs : List (Call α)) : Prop :=
  lastOf (ofKind? d.kind) cs = some d

/-- The calls about what is plotted, and not about how it is seen. -/
def Topic.isContent : Topic → Bool
  | .slots | .program | .frame => true
  | .view | .style => false

variable {d : Call α} {cs ds : List (Call α)}

theorem kind_ne_of_topic {c : Call α} (h : c.topic ≠ d.topic) : c.kind ≠ d.kind :=
  fun heq => h (congrArg Kind.topic heq)

theorem Stands.append (h : Stands d cs) (hds : ∀ c ∈ ds, c.kind ≠ d.kind) :
    Stands d (cs ++ ds) := by
  have hnone : ∀ c ∈ ds, ofKind? d.kind c = none := fun c hc => if_neg (hds c hc)
  rw [Stands, lastOf_append_of_none hnone]
  exact h

theorem stands_append_cons (h : ∀ c ∈ ds, c.kind ≠ d.kind) : Stands d (cs ++ d :: ds) := by
  have hlast : Stands d (cs ++ [d]) := by
    rw [Stands, lastOf_append, lastOf_singleton, ofKind?, if_pos rfl]
    rfl
  rw [List.append_cons]
  exact hlast.append h

/-- Of calls of different kinds, told one after the other, each stands. -/
theorem stands_append_of_nodup (h : (ds.map kind).Nodup) (hd : d ∈ ds) : Stands d (cs ++ ds) := by
  obtain ⟨before, after, rfl⟩ := List.append_of_mem hd
  rw [List.map_append, List.map_cons] at h
  have hkind : d.kind ∉ after.map kind := (List.nodup_cons.mp (List.nodup_append.mp h).2.1).1
  rw [← List.append_assoc]
  refine stands_append_cons fun c hc heq => hkind ?_
  exact heq ▸ List.mem_map_of_mem hc

end Call

theorem Outcome.isContent_calls {o : Outcome} {c : Call α} (h : c ∈ o.calls) :
    c.topic.isContent = true := by
  rw [topic_calls h]
  rfl

variable [Scalar α]

theorem Registry.isContent_slotCalls {r : Registry α} {c : Call α} (h : c ∈ r.slotCalls) :
    c.topic.isContent = true := by
  rw [topic_slotCalls h]
  rfl

theorem View.Moved.resolution_eq {v v' : View α} {size : Option (ScreenSize α)}
    (h : v.Moved size v') : v'.resolution = v.resolution := by
  cases h with
  | reset h =>
      obtain ⟨-, heq⟩ := ite_eq_ok_iff.mp h
      cases heq
      rfl
  | panned hsize h =>
      obtain ⟨-, rfl⟩ := moveTo_eq_ok_iff.mp h
      rfl
  | zoomed hsize h =>
      obtain ⟨zoomed, hz, heq⟩ := map_eq_ok_iff.mp h
      obtain ⟨-, moved, hm, rfl⟩ := zoomBy_eq_ok_iff.mp hz
      obtain ⟨-, rfl⟩ := moveTo_eq_ok_iff.mp hm
      cases heq
      rfl

namespace Session

/-- What an effect means for the view and the style. Whatever else is told is about the content. -/
inductive Appearance (s s' : Session α σ) : List (Call α) → Prop
  | same {ds : List (Call α)} (hview : s'.view = s.view) (hsize : s'.size = s.size)
      (hstyle : s'.style = s.style) (hds : ∀ d ∈ ds, d.topic.isContent = true) :
      Appearance s s' ds
  | restyled {c : Call α} {ds : List (Call α)} (h : s.style.Restyled s'.style c)
      (hview : s'.view = s.view) (hsize : s'.size = s.size)
      (hds : ∀ d ∈ ds, d.topic.isContent = true) : Appearance s s' (c :: ds)
  | unseen (hsize : s.size = none) (hsize' : s'.size = none) (hstyle : s'.style = s.style) :
      Appearance s s' []
  | looked {size : ScreenSize α} {ds : List (Call α)} (hsize : s.size = some size)
      (hsize' : s'.size = some size) (hresolution : s'.view.resolution = s.view.resolution)
      (hstyle : s'.style = s.style) (hds : ∀ d ∈ ds, d.topic.isContent = true) :
      Appearance s s' (.bounds (s'.view.bounds size) :: ds)
  | surfaced {size : ScreenSize α} {ds : List (Call α)} (hsize' : s'.size = some size)
      (hstyle : s'.style = s.style) (hds : ∀ d ∈ ds, d.topic.isContent = true) :
      Appearance s s' (s'.view.calls size ++ ds)

variable {compiler : Compiler} {event : Event α} {wanted : Bool} {s s' : Session α σ}
  {cs log : List (Call α)}

theorem Compilation.isContent (hc : s.Compilation compiler wanted s' cs) {c : Call α}
    (h : c ∈ cs) : c.topic.isContent = true := by
  cases hc with
  | accepted hv =>
      rcases List.mem_append.mp h with hslot | hrest
      · exact Registry.isContent_slotCalls hslot
      · rcases List.mem_cons.mp hrest with rfl | hdrawn
        · rfl
        · exact Outcome.isContent_calls hdrawn
  | rejected hv =>
      rcases List.mem_append.mp h with hslot | hrest
      · exact Registry.isContent_slotCalls hslot
      · rw [List.mem_singleton.mp hrest]
        rfl

theorem Compilation.appearance (hc : s.Compilation compiler wanted s' cs) :
    s'.view = s.view ∧ s'.size = s.size ∧ s'.style = s.style := by
  cases hc with
  | accepted hv => exact ⟨rfl, rfl, rfl⟩
  | rejected hv => exact ⟨rfl, rfl, rfl⟩

theorem Effect.appearance (h : Effect compiler event s s' cs) : Appearance s s' cs := by
  cases h with
  | silent => exact .same rfl rfl rfl (by simp)
  | auto b => exact .same rfl rfl rfl (by simp)
  | preferred h => exact .same rfl rfl rfl (by simp)
  | drawn h => exact .same rfl rfl rfl fun _ hd => Outcome.isContent_calls hd
  | restyled h => exact .restyled h rfl rfl fun _ hd => Outcome.isContent_calls hd
  | unseen hsize h => exact .unseen hsize hsize rfl
  | looked hsize h =>
      exact .looked hsize hsize h.resolution_eq rfl fun _ hd => Outcome.isContent_calls hd
  | surfaced h => exact .surfaced rfl rfl fun _ hd => Outcome.isContent_calls hd
  | ranged h => exact .same rfl rfl rfl (by simp)
  | revalued h =>
      refine .same rfl rfl rfl fun d hd => ?_
      rcases List.mem_append.mp hd with hslot | hdrawn
      · exact Registry.isContent_slotCalls hslot
      · exact Outcome.isContent_calls hdrawn
  | dragged hsize h hi he =>
      refine .same rfl rfl rfl fun d hd => ?_
      rcases List.mem_cons.mp hd with rfl | hdrawn
      · rfl
      · exact Outcome.isContent_calls hdrawn
  | compiled h hc =>
      obtain ⟨hview, hsize, hstyle⟩ := hc.appearance
      exact .same hview hsize hstyle fun _ hd => hc.isContent hd

/-- The plotter has heard of the view exactly if there is a screen, and then it has it as it is. -/
structure Displayed (s : Session α σ) (log : List (Call α)) : Prop where
  seen : ∀ size, s.size = some size → ∀ d ∈ s.view.calls size, d.Stands log
  unseen : s.size = none → ∀ c ∈ log, c.topic ≠ .view
  sides : ∀ width height, .resize width height ∈ log → 1 ≤ width ∧ 1 ≤ height

theorem displayed_nil (hsize : s.size = none) : s.Displayed [] where
  seen size h := by simp [hsize] at h
  unseen _ c hc := by simp at hc
  sides width height h := by simp at h

theorem Displayed.append_other (h : s.Displayed log) (hview : s'.view = s.view)
    (hsize : s'.size = s.size) (hcs : ∀ c ∈ cs, c.topic ≠ .view) :
    s'.Displayed (log ++ cs) := by
  refine ⟨?_, ?_, ?_⟩
  · intro size hs d hd
    rw [hview] at hd
    refine (h.seen size (hsize ▸ hs) d hd).append fun c hc => Call.kind_ne_of_topic ?_
    rw [View.topic_calls hd]
    exact hcs c hc
  · intro hs c hc
    rcases List.mem_append.mp hc with hlog | hnew
    · exact h.unseen (hsize ▸ hs) c hlog
    · exact hcs c hnew
  · intro width height hmem
    rcases List.mem_append.mp hmem with hlog | hnew
    · exact h.sides width height hlog
    · exact absurd rfl (hcs _ hnew)

theorem Displayed.append_bounds (h : s.Displayed log) {size : ScreenSize α}
    (hsize : s.size = some size) (hsize' : s'.size = some size)
    (hresolution : s'.view.resolution = s.view.resolution) :
    s'.Displayed (log ++ [.bounds (s'.view.bounds size)]) := by
  refine ⟨?_, ?_, ?_⟩
  · intro size' hs d hd
    obtain rfl : size = size' := Option.some.inj (hsize'.symm.trans hs)
    have hseen := h.seen size hsize
    simp only [View.calls, hresolution, List.mem_cons, List.not_mem_nil, or_false] at hseen hd
    rcases hd with rfl | rfl | rfl
    · exact (hseen _ (Or.inl rfl)).append (by simp [Call.kind])
    · exact (hseen _ (Or.inr (Or.inl rfl))).append (by simp [Call.kind])
    · exact Call.stands_append_cons (by simp)
  · intro hs
    rw [hsize'] at hs
    cases hs
  · intro width height hmem
    exact h.sides width height (by simpa using hmem)

theorem Displayed.append_view (h : s.Displayed log) {size : ScreenSize α}
    (hsize' : s'.size = some size) : s'.Displayed (log ++ s'.view.calls size) := by
  refine ⟨?_, ?_, ?_⟩
  · intro size' hs d hd
    obtain rfl : size = size' := Option.some.inj (hsize'.symm.trans hs)
    have hkinds : ((s'.view.calls size).map Call.kind).Nodup := by
      change [Call.Kind.resize, .resolution, .bounds].Nodup
      decide
    exact Call.stands_append_of_nodup hkinds hd
  · intro hs
    rw [hsize'] at hs
    cases hs
  · intro width height hmem
    rcases List.mem_append.mp hmem with hlog | hnew
    · exact h.sides width height hlog
    · obtain ⟨rfl, rfl⟩ := by simpa [View.calls] using hnew
      exact ⟨Scalar.one_le_pixels _, Scalar.one_le_pixels _⟩

theorem Appearance.displayed (ha : Appearance s s' cs) (h : s.Displayed log) :
    s'.Displayed (log ++ cs) := by
  have hother {ds : List (Call α)} (hds : ∀ d ∈ ds, d.topic.isContent = true) (d : Call α)
      (hd : d ∈ ds) : d.topic ≠ .view := by
    intro heq
    have hcontent := hds d hd
    rw [heq] at hcontent
    cases hcontent
  cases ha with
  | same hview hsize hstyle hds => exact h.append_other hview hsize (hother hds)
  | @restyled c ds hc hview hsize hds =>
      refine h.append_other hview hsize fun d hd => ?_
      rcases List.mem_cons.mp hd with rfl | hd
      · rw [hc.topic]
        decide
      · exact hother hds d hd
  | unseen hsize hsize' hstyle =>
      -- The view changes unheard, and the first screen will bring all of it.
      rw [List.append_nil]
      refine ⟨?_, fun _ => h.unseen hsize, h.sides⟩
      intro size hs
      rw [hsize'] at hs
      cases hs
  | looked hsize hsize' hresolution hstyle hds =>
      rw [List.append_cons]
      exact (h.append_bounds hsize hsize' hresolution).append_other rfl rfl (hother hds)
  | surfaced hsize' hstyle hds =>
      rw [← List.append_assoc]
      exact (h.append_view hsize').append_other rfl rfl (hother hds)

end Session

theorem clampIntensity_cases (x : α) :
    clampIntensity x = 0.0 ∨ clampIntensity x = 1.0 ∨ clampIntensity x = x := by
  rw [clampIntensity]
  split
  · exact Or.inl rfl
  · split
    · exact Or.inl rfl
    · split
      · exact Or.inr (Or.inl rfl)
      · exact Or.inr (Or.inr rfl)

theorem Double.clampIntensity_idem (x : Float) :
    clampIntensity (clampIntensity x) = clampIntensity x := by
  -- Both ends of the range are kept, which only the numbers themselves can tell.
  rcases clampIntensity_cases x with hzero | hone | hsame
  · rw [hzero]
    decide +kernel
  · rw [hone]
    decide +kernel
  · rw [hsame, hsame]

theorem Style.Restyled.mem_calls {style style' : Style Float} {c d : Call Float}
    (h : style.Restyled style' c) (hd : d ∈ style'.calls) :
    d = c ∨ d ∈ style.calls ∧ c.kind ≠ d.kind := by
  simp only [calls, List.mem_cons, List.not_mem_nil, or_false] at hd ⊢
  cases h <;> rcases hd with rfl | rfl | rfl | rfl | rfl <;>
    simp [Call.kind, Double.clampIntensity_idem]

namespace Session

def Styled (s : Session Float σ) (log : List (Call Float)) : Prop :=
  ∀ d ∈ s.style.calls, d.Stands log

variable {s s' : Session Float σ} {cs log : List (Call Float)}

theorem styled_append_calls (s : Session Float σ) (log : List (Call Float)) :
    s.Styled (log ++ s.style.calls) := by
  have hkinds : (s.style.calls.map Call.kind).Nodup := by
    change [Call.Kind.shading, .contour, .decorations, .coloring, .grid].Nodup
    decide
  exact fun d hd => Call.stands_append_of_nodup hkinds hd

theorem Styled.append_other (h : s.Styled log) (hstyle : s'.style = s.style)
    (hcs : ∀ c ∈ cs, c.topic ≠ .style) : s'.Styled (log ++ cs) := by
  intro d hd
  rw [hstyle] at hd
  refine (h d hd).append fun c hc => Call.kind_ne_of_topic ?_
  rw [Style.topic_calls hd]
  exact hcs c hc

theorem Styled.append_setting (h : s.Styled log) {c : Call Float}
    (hc : s.style.Restyled s'.style c) : s'.Styled (log ++ [c]) := by
  intro d hd
  rcases hc.mem_calls hd with rfl | ⟨hd', hkind⟩
  · exact Call.stands_append_cons (by simp)
  · exact (h d hd').append (by simpa using hkind)

theorem Appearance.styled (ha : Appearance s s' cs) (h : s.Styled log) :
    s'.Styled (log ++ cs) := by
  have hother {ds : List (Call Float)} (hds : ∀ d ∈ ds, d.topic.isContent = true)
      (d : Call Float) (hd : d ∈ ds) : d.topic ≠ .style := by
    intro heq
    have hcontent := hds d hd
    rw [heq] at hcontent
    cases hcontent
  cases ha with
  | same hview hsize hstyle hds => exact h.append_other hstyle (hother hds)
  | restyled hc hview hsize hds =>
      rw [List.append_cons]
      exact (h.append_setting hc).append_other rfl (hother hds)
  | unseen hsize hsize' hstyle => exact h.append_other hstyle (by simp)
  | looked hsize hsize' hresolution hstyle hds =>
      refine h.append_other hstyle fun d hd => ?_
      rcases List.mem_cons.mp hd with rfl | hd
      · simp [Call.topic, Call.kind, Call.Kind.topic]
      · exact hother hds d hd
  | surfaced hsize' hstyle hds =>
      refine h.append_other hstyle fun d hd => ?_
      rcases List.mem_append.mp hd with hview | hd
      · rw [View.topic_calls hview]
        decide
      · exact hother hds d hd

theorem styled_start [KeyValueStore σ] (compiler : Compiler) (s : Session Float σ)
    (width height : Float) (log : List (Call Float)) :
    (s.handle compiler (.start width height)).session.Styled
      (log ++ (s.handle compiler (.start width height)).calls) := by
  obtain ⟨s', cs, ds, ⟨s₁, s₂, h₁, heffect, h₂⟩, hc, hcalls⟩ := handle_start compiler s width height
  have hcompiled : Effect compiler (.start width height) s' _ ds := .compiled .same hc
  have hs₁ : s₁.Styled (log ++ s.style.calls) := by
    rw [Styled, h₁.style]
    exact styled_append_calls s log
  have hs' : s'.Styled (log ++ s.style.calls ++ cs) := by
    rw [Styled, h₂.style]
    exact heffect.appearance.styled hs₁
  rw [hcalls, ← List.append_assoc, ← List.append_assoc]
  exact hcompiled.appearance.styled hs'

end Session

namespace Transcript

variable [KeyValueStore σ]

theorem displayed_run {r : Transcript α σ} (h : r.session.Displayed r.calls)
    (steps : List (Step α)) : (r.run steps).session.Displayed (r.run steps).calls := by
  refine run_keeps_calls (P := fun s cs => s.Displayed cs) ?_ ?_ ?_ h steps
  · intro s s' log haside hs
    have hnone : ∀ c ∈ ([] : List (Call α)), c.topic ≠ .view := by simp
    simpa using hs.append_other haside.view haside.size hnone
  · intro compiler event s s' cs log heffect hs
    exact heffect.appearance.displayed hs
  · intro s log hs
    refine hs.append_other rfl rfl fun c hc => ?_
    rw [Style.topic_calls hc]
    decide

theorem styled_run {r : Transcript Float σ} {steps : List (Step Float)} {x : Step Float}
    {width height : Float} (hx : x ∈ steps) (hstart : x.event = .start width height) :
    (r.run steps).session.Styled (r.run steps).calls := by
  -- The start tells the whole style, so nothing before it matters.
  obtain ⟨before, after, rfl⟩ := List.append_of_mem hx
  rw [run_append, run_cons]
  refine run_keeps_calls (P := fun s cs => s.Styled cs) ?_ ?_ ?_ ?_ after
  · intro s s' log haside hs
    rw [Session.Styled, haside.style]
    exact hs
  · intro compiler event s s' cs log heffect hs
    exact heffect.appearance.styled hs
  · intro s log hs
    exact Session.styled_append_calls s log
  · rw [calls_step, step, hstart]
    exact Session.styled_start x.compiler _ width height _

/-- The plotter always has the view and the style as they are. With a screen, the last bounds,
resolution and surface that it was told belong to the view on that screen, and the sides of every
surface have at least one pixel; without a screen it was told none of them. Once the session was
started, the last call for every setting of the style carries that setting. -/
theorem run_mirrors_view {store : σ} {settings : Settings Float} {s : Session Float σ}
    (hs : Session.ofSettings store settings = .ok s) (steps : List (Step Float)) :
    let r := (ofSession s).run steps
    let v := r.session.view
    let style := r.session.style
    (∀ size, r.session.size = some size →
      Call.lastOf (Call.ofKind? .bounds) r.calls = some (.bounds (v.bounds size)) ∧
      Call.lastOf (Call.ofKind? .resolution) r.calls = some (.resolution v.resolution) ∧
      Call.lastOf (Call.ofKind? .resize) r.calls =
        some (.resize (Scalar.quantity (size.width * v.resolution)).nearestPixels
          (Scalar.quantity (size.height * v.resolution)).nearestPixels)) ∧
    (∀ width height, .resize width height ∈ r.calls → 1 ≤ width ∧ 1 ≤ height) ∧
    (r.session.size = none → ∀ c ∈ r.calls,
      c.kind ≠ .bounds ∧ c.kind ≠ .resize ∧ c.kind ≠ .resolution) ∧
    ((∃ x ∈ steps, ∃ width height, x.event = .start width height) →
      Call.lastOf (Call.ofKind? .shading) r.calls =
        some (.shading (clampIntensity style.shading)) ∧
      Call.lastOf (Call.ofKind? .contour) r.calls =
        some (.contour (clampIntensity style.contour)) ∧
      Call.lastOf (Call.ofKind? .decorations) r.calls = some (.decorations style.decorations) ∧
      Call.lastOf (Call.ofKind? .coloring) r.calls = some (.coloring style.coloring) ∧
      Call.lastOf (Call.ofKind? .grid) r.calls = some (.grid style.grid)) := by
  intro r v style
  obtain ⟨-, rfl⟩ := Session.ofSettings_eq_ok_iff.mp hs
  have hr : r.session.Displayed r.calls := displayed_run (Session.displayed_nil rfl) steps
  refine ⟨?_, hr.sides, ?_, ?_⟩
  · intro size hsize
    have hseen := hr.seen size hsize
    simp only [View.calls, Scalar.pixels_eq_nearest, List.forall_mem_cons] at hseen
    obtain ⟨hsurface, hresolution, hbounds, -⟩ := hseen
    exact ⟨hbounds, hresolution, hsurface⟩
  · intro hsize c hc
    have hview := hr.unseen hsize c hc
    have hnot {k : Call.Kind} (hk : k.topic = .view) : c.kind ≠ k :=
      fun heq => hview ((congrArg Call.Kind.topic heq).trans hk)
    exact ⟨hnot rfl, hnot rfl, hnot rfl⟩
  · rintro ⟨x, hx, width, height, hstart⟩
    have hstyled : r.session.Styled r.calls := styled_run hx hstart
    simp only [Session.Styled, Style.calls, List.forall_mem_cons] at hstyled
    obtain ⟨hshading, hcontour, hdecorations, hcoloring, hgrid, -⟩ := hstyled
    exact ⟨hshading, hcontour, hdecorations, hcoloring, hgrid⟩

/-- A flat canvas is moved under the pointer, and the shading is set beyond its range. -/
theorem run_mirrors_view_flat :
    let s : Session Float MemoryStore := Session.begun ⟨[]⟩ .initial
    let accepting : Compiler := fun _ _ => .accepted
    let steps : List (Step Float) :=
      [⟨accepting, .setShading 7⟩, ⟨accepting, .start 100.5 0.25⟩, ⟨accepting, .setContour (0 / 0)⟩,
        ⟨accepting, .pointerDown ⟨50, 0⟩ .primary (.ofMask 0)⟩,
        ⟨accepting, .pointerMove ⟨60, 0⟩ (.ofMask 0)⟩]
    let r := (ofSession s).run steps
    Session.ofSettings ⟨[]⟩ .initial = .ok s ∧
      Call.lastOf (Call.ofKind? .resize) r.calls = some (.resize 101 1) ∧
      Call.lastOf (Call.ofKind? .bounds) r.calls = some (.bounds ⟨-1446, -3, 966, 3⟩) ∧
      Call.lastOf (Call.ofKind? .shading) r.calls = some (.shading 1) ∧
      Call.lastOf (Call.ofKind? .contour) r.calls = some (.contour 0) := by
  intro s accepting steps r
  have hs : Session.ofSettings ⟨[]⟩ .initial = .ok s :=
    Session.ofSettings_eq_ok_iff.mpr ⟨by decide +kernel, rfl⟩
  have hsize : r.session.size = some ⟨100.5, 0.25⟩ := by decide +kernel
  obtain ⟨hscreen, -, -, hstyle⟩ := run_mirrors_view hs steps
  obtain ⟨hbounds, -, hsurface⟩ := hscreen _ hsize
  obtain ⟨hshading, hcontour, -⟩ := hstyle ⟨_, .tail _ (.head _), 100.5, 0.25, rfl⟩
  refine ⟨hs, hsurface.trans ?_, hbounds.trans ?_, hshading.trans ?_, hcontour.trans ?_⟩
  all_goals decide +kernel

end Transcript

end PlotPane
