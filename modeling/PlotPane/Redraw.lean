/-!
# When to draw

A change asks for a frame. Whether it is drawn at once, waits for the user, or is held back because
there is no program to run, is decided here and nowhere else.
-/

namespace PlotPane

/-- What became of a request for a frame. -/
inductive Outcome where
  | drawn
  /-- Drawing is not automatic: the frame waits. -/
  | deferred
  /-- Nothing has compiled, or the last attempt failed. -/
  | suppressed
  deriving DecidableEq, Repr

structure Scheduler where
  auto : Bool
  ready : Bool
  pending : Bool
  deriving DecidableEq, Repr

namespace Scheduler

def ofAuto (auto : Bool) : Scheduler :=
  ⟨auto, false, false⟩

def setAuto (s : Scheduler) (auto : Bool) : Scheduler :=
  { s with auto := auto }

/-- Whether the last compilation succeeded. -/
def setReady (s : Scheduler) (ready : Bool) : Scheduler :=
  { s with ready := ready }

/-- Asks for a frame after a change. -/
def request (s : Scheduler) : Outcome × Scheduler :=
  if !s.ready then (.suppressed, { s with pending := true })
  else if !s.auto then (.deferred, { s with pending := true })
  else (.drawn, { s with pending := false })

/-- Draws at the user's wish, automatic or not. -/
def drawNow (s : Scheduler) : Outcome × Scheduler :=
  if !s.ready then (.suppressed, s) else (.drawn, { s with pending := false })

end Scheduler

end PlotPane
