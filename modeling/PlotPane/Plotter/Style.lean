import PlotPane.Plotter.Call

/-!
# Style

The settings of the plotter that change how a plot looks and not what it shows.
-/

namespace PlotPane

structure Style (α : Type) where
  shading : α
  contour : α
  decorations : UInt32
  coloring : UInt32
  grid : UInt32
  deriving DecidableEq, Repr

variable {α : Type} [Scalar α]

/-- An intensity is a number from zero to one. NaN counts as zero. -/
def clampIntensity (x : α) : α :=
  if Scalar.isNaN x then 0.0
  else if x < 0.0 then 0.0
  else if 1.0 < x then 1.0
  else x

namespace Style

def initial : Style α where
  shading := 0.01
  contour := 0.0
  decorations := 0
  coloring := 1
  grid := 2

/-- Tells every setting to the plotter. -/
def calls (s : Style α) : List (Call α) :=
  [.shading (clampIntensity s.shading), .contour (clampIntensity s.contour),
    .decorations s.decorations, .coloring s.coloring, .grid s.grid]

end Style

end PlotPane
