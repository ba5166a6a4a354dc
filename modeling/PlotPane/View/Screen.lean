import PlotPane.Number.Scalar
import PlotPane.Plane

/-!
# Screens

The size of the canvas in pixels, and the reasons why a view cannot be what it was asked to be.
-/

namespace PlotPane

inductive ViewError (α : Type) where
  | screenSize (width height : α)
  | scale (scale : α)
  | center (re im : α)
  | resolution (factor : α)
  deriving DecidableEq, Repr

def ViewError.message {α : Type} [Scalar α] : ViewError α → String
  | .screenSize width height => s!"invalid screen size: {Scalar.text width}x{Scalar.text height}"
  | .scale s => s!"invalid scale: {Scalar.text s}"
  | .center re im => s!"invalid offset: ({Scalar.text re}, {Scalar.text im})"
  | .resolution factor => s!"invalid resolution multiplier: {Scalar.text factor}"

structure ScreenSize (α : Type) where
  width : α
  height : α
  deriving DecidableEq, Repr

namespace ScreenSize

variable {α : Type} [Scalar α]

/-- Both sides have to be finite and positive. -/
def ofSides (width height : α) : Except (ViewError α) (ScreenSize α) :=
  if Scalar.isExtent width && Scalar.isExtent height then .ok ⟨width, height⟩
  else .error (.screenSize width height)

def aspect (size : ScreenSize α) : α :=
  size.width / size.height

def center (size : ScreenSize α) : ScreenPoint α :=
  ⟨size.width * 0.5, size.height * 0.5⟩

end ScreenSize

end PlotPane
