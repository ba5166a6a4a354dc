import PlotPane.Preferences
import PlotPane.Variable.Registry

/-!
# Actions

What a page has to do after an event so that it shows the session as it is.
-/

namespace PlotPane

inductive Action (α : Type) where
  | cursorLabel (text : String)
  | markerMoved (id : VariableId) (position : ScreenPoint α)
  /-- New texts for the fields of a point. -/
  | pointFields (id : VariableId) (re im : String)
  /-- The value of a slider and where its thumb sits. -/
  | sliderChanged (id : VariableId) (value position : α)
  | added (v : Variable α)
  | removed (id : VariableId)
  | compiled
  | compileFailed (message : String)
  | copy (text : String)
  | themeChanged (theme : Theme)
  deriving DecidableEq, Repr

end PlotPane
