/-!
# Points

Screen points are in pixels from the top left corner, with `y` growing downward. Plane points are
complex numbers, with the imaginary axis growing upward.
-/

namespace PlotPane

structure ScreenPoint (α : Type) where
  x : α
  y : α
  deriving DecidableEq, Repr

structure PlanePoint (α : Type) where
  re : α
  im : α
  deriving DecidableEq, Repr

end PlotPane
