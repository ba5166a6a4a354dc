import PlotPane.Number.Scalar
import PlotPane.Plane

/-!
# Variables

A variable is a slider, a real number with the range and the step of its gesture, or a point of the
plane. It has a name by which a plotted expression refers to it, and an identity that stays when its
slot changes.
-/

namespace PlotPane

structure VariableId where
  index : UInt32
  deriving DecidableEq, Repr

def VariableId.text (id : VariableId) : String :=
  toString id.index.toNat

/-- The range and the step shape the gesture only: the value may lie outside, and the ends may be in
either order. -/
structure Slider (α : Type) where
  value : α
  min : α
  max : α
  step : α
  deriving DecidableEq, Repr

inductive Value (α : Type) where
  | slider (s : Slider α)
  | point (z : PlanePoint α)
  deriving DecidableEq, Repr

structure Variable (α : Type) where
  id : VariableId
  name : String
  value : Value α
  deriving DecidableEq, Repr

section

variable {α : Type} [Scalar α]

/-- What a new slider is. -/
def Slider.initial : Slider α where
  value := 0.0
  min := -1.0
  max := 1.0
  step := 0.01

/-- Zero in place of what is not finite. -/
def Slider.finiteOrZero (s : Slider α) : Slider α where
  value := Scalar.finiteOrZero s.value
  min := Scalar.finiteOrZero s.min
  max := Scalar.finiteOrZero s.max
  step := Scalar.finiteOrZero s.step

/-- Zero in place of what is not finite. -/
def PlanePoint.finiteOrZero (z : PlanePoint α) : PlanePoint α where
  re := Scalar.finiteOrZero z.re
  im := Scalar.finiteOrZero z.im

/-- The two ends of the range, the lower one first. -/
def Slider.range (s : Slider α) : α × α :=
  if s.min ≤ s.max then (s.min, s.max) else (s.max, s.min)

/-- The number in the range that is nearest to `x`. -/
def Slider.clamp (s : Slider α) (x : α) : α :=
  Scalar.smaller (Scalar.larger x s.range.1) s.range.2

/-- Where the thumb sits. -/
def Slider.position (s : Slider α) : α :=
  s.clamp s.value

/-- The complex number that a plotted expression sees. -/
def Value.slot : Value α → PlanePoint α
  | .slider s => ⟨s.value, 0.0⟩
  | .point z => z

end

def Value.point? {α : Type} : Value α → Option (PlanePoint α)
  | .slider _ => none
  | .point z => some z

/-- A text field of a variable. -/
inductive Field where
  | name
  | value
  | min
  | max
  | step
  | re
  | im
  deriving DecidableEq, Repr

namespace Field

/-- The field as it stands in a message. -/
def label : Field → String
  | .name => "Name"
  | .value => "Value"
  | .min => "Min"
  | .max => "Max"
  | .step => "Step"
  | .re => "Re"
  | .im => "Im"

/-- The field with a given lower-case name. -/
def ofName? : String → Option Field
  | "name" => some .name
  | "value" => some .value
  | "min" => some .min
  | "max" => some .max
  | "step" => some .step
  | "re" => some .re
  | "im" => some .im
  | _ => none

end Field

inductive VariableError where
  | unknown (id : VariableId)
  | noField (id : VariableId) (field : Field)
  deriving DecidableEq, Repr

def VariableError.message : VariableError → String
  | .unknown id => s!"unknown variable: {id.text}"
  | .noField id field => s!"variable {id.text} has no field {field.label}"

end PlotPane
