import PlotPane.View.Mapping

/-!
# Point handles

What a page shows of a point: the texts of its two parts and the marker on the canvas. A text that
was typed stays as it was typed; a change of the point from anywhere else writes both texts anew.
-/

namespace PlotPane

inductive Part where
  | re
  | im
  deriving DecidableEq, Repr

/-- There is no marker before the canvas has a size. -/
structure PointHandle (α : Type) where
  reText : String
  imText : String
  marker : Option (ScreenPoint α)
  deriving DecidableEq, Repr

namespace PointHandle

variable {α : Type}

/-- Keeps a typed text. -/
def setText (h : PointHandle α) (part : Part) (text : String) : PointHandle α :=
  match part with
  | .re => { h with reText := text }
  | .im => { h with imText := text }

variable [Scalar α]

def ofPoint (z : PlanePoint α) : PointHandle α where
  reText := Scalar.fieldText z.re
  imText := Scalar.fieldText z.im
  marker := none

/-- Moves the marker to where `z` is drawn. -/
def placeMarker (h : PointHandle α) (z : PlanePoint α) (v : View α) (size : Option (ScreenSize α)) :
    PointHandle α :=
  { h with marker := size.map fun s => v.toScreen s z }

/-- Writes both texts and moves the marker. -/
def sync (h : PointHandle α) (z : PlanePoint α) (v : View α) (size : Option (ScreenSize α)) :
    PointHandle α :=
  { h with reText := Scalar.fieldText z.re, imText := Scalar.fieldText z.im }.placeMarker z v size

/-- Whether `p` is within `radius` pixels of the marker. -/
def hit (h : PointHandle α) (p : ScreenPoint α) (radius : α) : Bool :=
  match h.marker with
  | none => false
  | some m =>
    let dx := m.x - p.x
    let dy := m.y - p.y
    decide (dx * dx + dy * dy ≤ radius * radius)

end PointHandle

end PlotPane
