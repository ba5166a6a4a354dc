import PlotPane.Redraw
import PlotPane.Variable.Registry

/-!
# The plotter

The plotter compiles an expression and draws it. It is driven by calls, and the only thing it
answers is whether an expression compiled.
-/

namespace PlotPane

inductive Call (α : Type) where
  /-- The size of the surface in its own pixels. -/
  | resize (width height : Nat)
  | resolution (factor : α)
  | bounds (b : Bounds α)
  | slot (index : Nat) (z : PlanePoint α)
  /-- The names are bound to the slots by position. -/
  | compile (source : String) (names : List String)
  | redraw
  | shading (intensity : α)
  | contour (intensity : α)
  | decorations (mask : UInt32)
  | coloring (mode : UInt32)
  | grid (mode : UInt32)
  deriving DecidableEq, Repr

/-- The plotter's answer to an expression and the names of its variables. -/
inductive Verdict where
  | accepted
  | rejected (message : String)
  deriving DecidableEq, Repr

abbrev Compiler := String → List String → Verdict

variable {α : Type}

/-- The call that a request for a frame turns into. -/
def Outcome.calls : Outcome → List (Call α)
  | .drawn => [.redraw]
  | .deferred | .suppressed => []

/-- Writes every slot in use. -/
def Registry.slotCalls [Scalar α] (r : Registry α) : List (Call α) :=
  r.slots.zipIdx.map fun s => .slot s.2 s.1

end PlotPane
