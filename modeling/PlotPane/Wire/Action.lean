import PlotPane.Session.Handle
import PlotPane.Wire.Basic

/-!
# Actions in JSON

An action is written as an object that names its type first.
-/

namespace PlotPane

variable {α : Type} [Scalar α]

namespace Action

def typeName : Action α → String
  | .cursorLabel _ => "cursor_label"
  | .markerMoved _ _ => "marker_moved"
  | .pointFields _ _ _ => "point_fields_changed"
  | .sliderChanged _ _ _ => "slider_changed"
  | .added _ => "variable_added"
  | .removed _ => "variable_removed"
  | .compiled => "compile_succeeded"
  | .compileFailed _ => "compile_failed"
  | .copy _ => "copy_to_clipboard"
  | .themeChanged _ => "theme_changed"

/-- What an action says beside its type. -/
def fields : Action α → List (String × Json)
  | .cursorLabel text => [("text", .text text)]
  | .markerMoved id p => [("id", id.toJson), ("x", .ofScalar p.x), ("y", .ofScalar p.y)]
  | .pointFields id re im => [("id", id.toJson), ("re", .text re), ("im", .text im)]
  | .sliderChanged id value position =>
    [("id", id.toJson), ("value", .ofScalar value), ("position", .ofScalar position)]
  | .added v => [("variable", v.toJson)]
  | .removed id => [("id", id.toJson)]
  | .compiled => []
  | .compileFailed message => [("message", .text message)]
  | .copy text => [("text", .text text)]
  | .themeChanged theme => [("theme", theme.toJson)]

def toJson (a : Action α) : Json :=
  .record (("type", .text a.typeName) :: a.fields)

/-- The text of all actions of an event. -/
def listText (as : List (Action α)) : String :=
  (Json.arr (as.map toJson)).render

end Action

end PlotPane
