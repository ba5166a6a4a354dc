import PlotPane.Gesture
import PlotPane.Preferences

/-!
# Events

Everything that can happen to a session.
-/

namespace PlotPane

inductive Event (α : Type) where
  | start (width height : α)
  | resize (width height : α)
  /-- The plot is drawn larger than the screen by a power of two. -/
  | setResolution (exponent : α)
  | resetView
  | pointerDown (position : ScreenPoint α) (button : Button) (modifiers : Modifiers)
  | pointerMove (position : ScreenPoint α) (modifiers : Modifiers)
  | pointerUp (position : ScreenPoint α) (button : Button) (modifiers : Modifiers)
  | pointerLeave
  | wheel (position : ScreenPoint α) (delta : WheelDelta α) (modifiers : Modifiers)
  | keyDown (key : Key) (modifiers : Modifiers)
  | setSource (source : String)
  | graph
  | redraw
  | setAutoRedraw (auto : Bool)
  | setShading (intensity : α)
  | setContour (intensity : α)
  | setDecorations (mask : UInt32)
  | setColoring (mode : UInt32)
  | setGrid (mode : UInt32)
  | setTheme (theme : Theme)
  | toggleTheme
  | addSlider (name : String) (s : Slider α)
  | addPoint (name : String) (z : PlanePoint α)
  | removeVariable (id : VariableId)
  | editVariable (id : VariableId) (field : Field) (text : String)
  | slideVariable (id : VariableId) (raw : α)
  deriving DecidableEq, Repr

end PlotPane
