import PlotPane.Session.Handle

/-!
# Transcripts

A transcript is a session together with all that the plotter was told since it began, each call with
the verdict that it got. It grows by one event at a time. Every event comes with a compiler of its
own, and no event asks for more than one verdict, so every sequence of verdicts occurs in some run.
-/

namespace PlotPane

variable {α σ β : Type}

/-- An event, with what the plotter would say of any expression while it is handled. -/
structure Step (α : Type) where
  compiler : Compiler
  event : Event α

/-- A call to the plotter, with the verdict if the call asks for one. -/
structure Told (α : Type) where
  call : Call α
  verdict : Option Verdict
  deriving DecidableEq, Repr

structure Transcript (α σ : Type) where
  session : Session α σ
  log : List (Told α)

namespace Call

def verdict? (compiler : Compiler) : Call α → Option Verdict
  | .compile source names => some (compiler source names)
  | _ => none

def told (compiler : Compiler) (c : Call α) : Told α :=
  ⟨c, c.verdict? compiler⟩

@[simp] theorem map_call_told (compiler : Compiler) (cs : List (Call α)) :
    (cs.map (told compiler)).map Told.call = cs := by
  rw [List.map_map]
  exact List.map_id cs

/-- A call without what it carries. -/
inductive Kind where
  | resize
  | resolution
  | bounds
  | slot
  | compile
  | redraw
  | shading
  | contour
  | decorations
  | coloring
  | grid
  deriving DecidableEq, Repr

/-- What a call is about. -/
inductive Topic where
  | view
  | slots
  | program
  | frame
  | style
  deriving DecidableEq, Repr

def Kind.topic : Kind → Topic
  | .resize | .resolution | .bounds => .view
  | .slot => .slots
  | .compile => .program
  | .redraw => .frame
  | .shading | .contour | .decorations | .coloring | .grid => .style

def kind : Call α → Kind
  | .resize _ _ => .resize
  | .resolution _ => .resolution
  | .bounds _ => .bounds
  | .slot _ _ => .slot
  | .compile _ _ => .compile
  | .redraw => .redraw
  | .shading _ => .shading
  | .contour _ => .contour
  | .decorations _ => .decorations
  | .coloring _ => .coloring
  | .grid _ => .grid

def topic (c : Call α) : Topic :=
  c.kind.topic

def slotAt? (index : Nat) : Call α → Option (PlanePoint α)
  | .slot i z => if i = index then some z else none
  | _ => none

def names? : Call α → Option (List String)
  | .compile _ names => some names
  | _ => none

def ofKind? (k : Kind) (c : Call α) : Option (Call α) :=
  if c.kind = k then some c else none

/-- The last of the calls that carry something of one kind, by what it carries. -/
def lastOf (f : Call α → Option β) (cs : List (Call α)) : Option β :=
  (cs.filterMap f).getLast?

@[simp] theorem lastOf_nil (f : Call α → Option β) : lastOf f [] = none := rfl

theorem lastOf_append (f : Call α → Option β) (cs ds : List (Call α)) :
    lastOf f (cs ++ ds) = (lastOf f ds).or (lastOf f cs) := by
  rw [lastOf, List.filterMap_append, List.getLast?_append]
  rfl

@[simp] theorem lastOf_singleton (f : Call α → Option β) (c : Call α) : lastOf f [c] = f c := by
  cases h : f c <;> simp [lastOf, h]

theorem lastOf_cons (f : Call α → Option β) (c : Call α) (cs : List (Call α)) :
    lastOf f (c :: cs) = (lastOf f cs).or (f c) := by
  rw [← List.singleton_append, lastOf_append, lastOf_singleton]

theorem lastOf_append_of_none {f : Call α → Option β} {ds : List (Call α)}
    (h : ∀ d ∈ ds, f d = none) (cs : List (Call α)) : lastOf f (cs ++ ds) = lastOf f cs := by
  have hds : ds.filterMap f = [] := List.filterMap_eq_nil_iff.mpr h
  rw [lastOf_append]
  simp [lastOf, hds]

theorem lastOf_eq_none_iff {f : Call α → Option β} {cs : List (Call α)} :
    lastOf f cs = none ↔ ∀ c ∈ cs, f c = none := by
  rw [lastOf, List.getLast?_eq_none_iff, List.filterMap_eq_nil_iff]

end Call

theorem Outcome.eq_redraw_of_mem_calls {o : Outcome} {c : Call α} (h : c ∈ o.calls) :
    c = .redraw := by
  cases o with
  | drawn => exact List.mem_singleton.mp h
  | deferred => cases h
  | suppressed => cases h

theorem Outcome.topic_calls {o : Outcome} {c : Call α} (h : c ∈ o.calls) : c.topic = .frame := by
  rw [Outcome.eq_redraw_of_mem_calls h]
  rfl

theorem Registry.topic_slotCalls [Scalar α] {r : Registry α} {c : Call α} (h : c ∈ r.slotCalls) :
    c.topic = .slots := by
  obtain ⟨s, -, rfl⟩ := List.mem_map.mp h
  rfl

theorem Style.topic_calls [Scalar α] {style : Style α} {c : Call α} (h : c ∈ style.calls) :
    c.topic = .style := by
  simp only [calls, List.mem_cons, List.not_mem_nil, or_false] at h
  rcases h with rfl | rfl | rfl | rfl | rfl <;> rfl

def Told.lastVerdict? (log : List (Told α)) : Option Verdict :=
  (log.filterMap Told.verdict).getLast?

theorem Told.lastVerdict?_append (log more : List (Told α)) :
    lastVerdict? (log ++ more) = (lastVerdict? more).or (lastVerdict? log) := by
  rw [lastVerdict?, List.filterMap_append, List.getLast?_append]
  rfl

/-- A session begins from settings exactly if all of them can be used, and then in one way. -/
theorem Session.ofSettings_eq_ok_iff [Scalar α] [KeyValueStore σ] {store : σ}
    {settings : Settings α} {s : Session α σ} :
    Session.ofSettings store settings = .ok s ↔
      settings.invalid? = none ∧ s = Session.begun store settings := by
  rw [Session.ofSettings, Settings.validate]
  cases settings.invalid? with
  | none => simp [Except.map, eq_comm]
  | some m => simp [Except.map]

namespace Transcript

def ofSession (s : Session α σ) : Transcript α σ :=
  ⟨s, []⟩

def calls (r : Transcript α σ) : List (Call α) :=
  r.log.map Told.call

@[simp] theorem calls_ofSession (s : Session α σ) : (ofSession s).calls = [] := rfl

variable [Scalar α] [KeyValueStore σ]

def step (r : Transcript α σ) (x : Step α) : Transcript α σ :=
  let a := r.session.handle x.compiler x.event
  ⟨a.session, r.log ++ a.calls.map (Call.told x.compiler)⟩

def run (r : Transcript α σ) (xs : List (Step α)) : Transcript α σ :=
  xs.foldl step r

@[simp] theorem run_nil (r : Transcript α σ) : r.run [] = r := rfl

@[simp] theorem run_cons (r : Transcript α σ) (x : Step α) (xs : List (Step α)) :
    r.run (x :: xs) = (r.step x).run xs := rfl

theorem run_append (r : Transcript α σ) (xs ys : List (Step α)) :
    r.run (xs ++ ys) = (r.run xs).run ys :=
  List.foldl_append

@[simp] theorem calls_step (r : Transcript α σ) (x : Step α) :
    (r.step x).calls = r.calls ++ (r.session.handle x.compiler x.event).calls := by
  rw [calls, step, List.map_append, Call.map_call_told]
  rfl

theorem run_induction {P : Transcript α σ → Prop} (hstep : ∀ r x, P r → P (r.step x))
    {r : Transcript α σ} (h : P r) (xs : List (Step α)) : P (r.run xs) := by
  induction xs generalizing r with
  | nil => exact h
  | cons x xs ih => exact ih (hstep r x h)

end Transcript

end PlotPane
