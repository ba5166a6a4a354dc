import PlotPane.Plane
import PlotPane.Variable.Basic

/-!
# Gestures

What the pointer and the keyboard report, and what the pointer is dragging.
-/

namespace PlotPane

structure Modifiers where
  shift : Bool
  ctrl : Bool
  alt : Bool
  command : Bool
  deriving DecidableEq, Repr

/-- The bits of the mask, from the lowest: shift, ctrl, alt, command. -/
def Modifiers.ofMask (mask : UInt8) : Modifiers where
  shift := mask &&& 1 != 0
  ctrl := mask &&& 2 != 0
  alt := mask &&& 4 != 0
  command := mask &&& 8 != 0

inductive Button where
  | primary
  | middle
  | secondary
  deriving DecidableEq, Repr

/-- Every number that is not the middle or the secondary button's stands for the primary one. -/
def Button.ofNumber : Int → Button
  | 1 => .middle
  | 2 => .secondary
  | _ => .primary

structure Key where
  name : String
  deriving DecidableEq, Repr

/-- Whether a key has a given name. The case of ASCII letters does not count. -/
def Key.is (key : Key) (name : String) : Bool :=
  key.name.toList.map Char.toLower == name.toList.map Char.toLower

structure WheelDelta (α : Type) where
  dx : α
  dy : α
  deriving DecidableEq, Repr

inductive Drag (α : Type) where
  | idle
  /-- The background, last seen at a position. -/
  | panning (last : ScreenPoint α)
  | point (id : VariableId)
  deriving DecidableEq, Repr

namespace Drag

variable {α : Type}

def isIdle : Drag α → Bool
  | .idle => true
  | _ => false

def point? : Drag α → Option VariableId
  | .point id => some id
  | _ => none

end Drag

end PlotPane
