import PlotPane.Json.Record
import PlotPane.Plotter.Style
import PlotPane.Preferences

/-!
# JSON forms

How points, themes, styles and variables are read from JSON and written to it.
-/

namespace PlotPane

variable {α : Type} [Scalar α]

namespace ScreenPoint

def toJson (p : ScreenPoint α) : Json :=
  .record [("x", .ofScalar p.x), ("y", .ofScalar p.y)]

def ofJson? (j : Json) : Option (ScreenPoint α) := do
  match ← j.row? ["x", "y"] with
  | [x, y] => return ⟨← Json.required Json.number? x, ← Json.required Json.number? y⟩
  | _ => none

end ScreenPoint

namespace PlanePoint

def toJson (z : PlanePoint α) : Json :=
  .record [("re", .ofScalar z.re), ("im", .ofScalar z.im)]

def ofJson? (j : Json) : Option (PlanePoint α) := do
  match ← j.row? ["re", "im"] with
  | [re, im] => return ⟨← Json.required Json.number? re, ← Json.required Json.number? im⟩
  | _ => none

end PlanePoint

namespace Theme

def toJson (t : Theme) : Json :=
  .text t.name

def ofName? (name : String) : Option Theme :=
  if name = Theme.light.name then some .light
  else if name = Theme.dark.name then some .dark
  else none

/-- The name as a text, or as the only member of an object, with the value null. -/
def ofJson? : Json → Option Theme
  | .str (some name) => ofName? name
  | .obj [(some name, .null)] => ofName? name
  | _ => none

end Theme

namespace Style

/-- The names of the fields in their order. -/
def fieldNames : List String :=
  ["shading_intensity", "contour_intensity", "decorations", "coloring", "grid_mode"]

/-- What is missing has its initial setting. -/
def ofJson? (j : Json) : Option (Style α) := do
  let s : Style α := .initial
  match ← j.row? fieldNames with
  | [shading, contour, decorations, coloring, grid] =>
    return {
      shading := ← Json.optional s.shading Json.number? shading
      contour := ← Json.optional s.contour Json.number? contour
      decorations := ← Json.optional s.decorations Json.word? decorations
      coloring := ← Json.optional s.coloring Json.word? coloring
      grid := ← Json.optional s.grid Json.word? grid }
  | _ => none

end Style

def Bounds.toJson (b : Bounds α) : Json :=
  .record [("x_min", .ofScalar b.left), ("y_min", .ofScalar b.bottom), ("x_max", .ofScalar b.right),
    ("y_max", .ofScalar b.top)]

def VariableId.toJson (id : VariableId) : Json :=
  .ofNat id.index.toNat

def Value.toJson : Value α → Json
  | .slider s =>
    .record [("kind", .text "slider"), ("value", .ofScalar s.value), ("min", .ofScalar s.min),
      ("max", .ofScalar s.max), ("step", .ofScalar s.step)]
  | .point z => .record [("kind", .text "point"), ("re", .ofScalar z.re), ("im", .ofScalar z.im)]

def Variable.toJson (v : Variable α) : Json :=
  .record [("id", v.id.toJson), ("name", .text v.name), ("value", v.value.toJson)]

end PlotPane
