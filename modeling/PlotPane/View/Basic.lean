import PlotPane.View.Screen

/-!
# Views

A view is the plane point at the middle of the screen, the height of the plane that is visible above
it, and the factor by which the plot is drawn larger than the screen. A change is checked
before it is made: a rejected pan or zoom leaves the view as it was.
-/

namespace PlotPane

/-- Half of the visible height in plane units is `scale`. -/
structure View (α : Type) where
  center : PlanePoint α
  scale : α
  resolution : α
  deriving DecidableEq, Repr

/-- The visible rectangle of the plane. -/
structure Bounds (α : Type) where
  left : α
  bottom : α
  right : α
  top : α
  deriving DecidableEq, Repr

namespace Bounds

variable {α : Type} [Scalar α]

def width (b : Bounds α) : α :=
  b.right - b.left

def height (b : Bounds α) : α :=
  b.top - b.bottom

end Bounds

namespace View

variable {α : Type} [Scalar α]

def defaultScale : α := 3.0

/-- The view of the origin with a given scale. -/
def atOrigin (scale : α) : View α where
  center := ⟨0.0, 0.0⟩
  scale := scale
  resolution := 1.0

def initial : View α :=
  atOrigin defaultScale

def ofScale (scale : α) : Except (ViewError α) (View α) :=
  if Scalar.isMeasure scale then .ok (atOrigin scale) else .error (.scale scale)

/-- Back to the origin. The resolution stays. -/
def reset (v : View α) (scale : α) : Except (ViewError α) (View α) :=
  if Scalar.isMeasure scale then .ok { v with center := ⟨0.0, 0.0⟩, scale := scale }
  else .error (.scale scale)

def bounds (v : View α) (size : ScreenSize α) : Bounds α :=
  let halfWidth := v.scale * size.aspect
  { left := v.center.re - halfWidth
    bottom := v.center.im - v.scale
    right := v.center.re + halfWidth
    top := v.center.im + v.scale }

/-- The middle of the screen after the plane has followed a pointer that moved by `delta`. -/
def pannedCenter (v : View α) (delta : ScreenPoint α) (size : ScreenSize α) : PlanePoint α :=
  let perPixel := 2.0 * v.scale / size.height
  ⟨v.center.re - perPixel * delta.x, v.center.im + perPixel * delta.y⟩

/-- Moves the middle of the screen to a finite point. -/
def moveTo (v : View α) (z : PlanePoint α) : Except (ViewError α) (View α) :=
  if Scalar.isFinite z.re && Scalar.isFinite z.im then .ok { v with center := z }
  else .error (.center z.re z.im)

def pan (v : View α) (delta : ScreenPoint α) (size : ScreenSize α) :
    Except (ViewError α) (View α) :=
  v.moveTo (v.pannedCenter delta size)

/-- The move of the plane, at the scale before a zoom by `factor`, that keeps the point under the
cursor where it is. -/
def zoomShift (cursor : ScreenPoint α) (factor : α) (size : ScreenSize α) : ScreenPoint α :=
  ⟨(size.center.x - cursor.x) * (1.0 - factor), (size.center.y - cursor.y) * (1.0 - factor)⟩

/-- Scales by a factor about the cursor. A bad scale is reported before a bad center. -/
def zoomBy (v : View α) (cursor : ScreenPoint α) (factor : α) (size : ScreenSize α) :
    Except (ViewError α) (View α) :=
  let scale := v.scale * factor
  if Scalar.isMeasure scale then
    (v.moveTo (v.pannedCenter (zoomShift cursor factor size) size)).map
      fun moved => { moved with scale := scale }
  else
    .error (.scale scale)

/-- Zooms about the cursor by `exp (amount * rate)`, and gives that factor too. -/
def zoom (v : View α) (cursor : ScreenPoint α) (amount rate : α) (size : ScreenSize α) :
    Except (ViewError α) (α × View α) :=
  let factor := Scalar.exp (amount * rate)
  (v.zoomBy cursor factor size).map fun zoomed => (factor, zoomed)

def setResolution (v : View α) (factor : α) : Except (ViewError α) (View α) :=
  if Scalar.isExtent factor then .ok { v with resolution := factor } else .error (.resolution factor)

end View

end PlotPane
