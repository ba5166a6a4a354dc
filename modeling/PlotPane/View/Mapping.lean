import PlotPane.View.Basic

/-!
# Screen and plane

The affine map between screen points and the plane points drawn there, and the text that tells a
plane point to a reader.
-/

namespace PlotPane.View

variable {α : Type} [Scalar α]

/-- The plane point drawn at a screen point. -/
def toPlane (v : View α) (size : ScreenSize α) (p : ScreenPoint α) : PlanePoint α :=
  let halfWidth := v.scale * size.aspect
  { re := v.center.re + (p.x / size.width * 2.0 - 1.0) * halfWidth
    im := v.center.im - (p.y / size.height * 2.0 - 1.0) * v.scale }

/-- The screen point at which a plane point is drawn. -/
def toScreen (v : View α) (size : ScreenSize α) (z : PlanePoint α) : ScreenPoint α :=
  let halfWidth := v.scale * size.aspect
  { x := ((z.re - v.center.re) / halfWidth + 1.0) * size.width * 0.5
    y := (1.0 - (z.im - v.center.im) / v.scale) * size.height * 0.5 }

/-- The most decimals in a label. -/
def maxLabelDecimals : Nat := 17

/-- As many decimals as it takes to tell a thousandth of the scale. -/
def labelDecimals (scale : α) : Nat :=
  Scalar.decimals maxLabelDecimals (scale * 0.001)

/-- The text of a plane point seen at a scale. -/
def label (scale : α) (z : PlanePoint α) : String :=
  let places := labelDecimals scale
  Scalar.fixedText places z.re ++ " + " ++ Scalar.fixedText places z.im ++ "i"

end PlotPane.View
