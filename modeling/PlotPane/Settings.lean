import PlotPane.Wire.Basic

/-!
# Settings

What the page may choose when a session begins. The settings come as JSON text in which every field
may be missing, and an empty text means that all are.
-/

namespace PlotPane

structure Settings (α : Type) where
  autoRedraw : Bool
  /-- The zoom for one pixel of the wheel. -/
  zoomRate : α
  /-- How near to a marker, in pixels, the pointer has to be to grab it. -/
  markerRadius : α
  /-- The scale of the view after a reset. -/
  defaultScale : α
  style : Style α
  deriving DecidableEq, Repr

inductive SettingsError (α : Type) where
  | unreadable
  | invalid (field : String) (value : α)
  deriving DecidableEq, Repr

namespace Settings

variable {α : Type} [Scalar α]

def initial : Settings α where
  autoRedraw := true
  zoomRate := 0.0007
  markerRadius := 8.0
  defaultScale := View.defaultScale
  style := .initial

/-- The fields that have to be measures, with their names. -/
def measures (s : Settings α) : List (String × α) :=
  [("zoom_rate", s.zoomRate), ("marker_radius_px", s.markerRadius),
    ("default_scale", s.defaultScale)]

/-- The first field with a value that nothing can be done with. -/
def invalid? (s : Settings α) : Option (String × α) :=
  s.measures.find? fun m => !Scalar.isMeasure m.2

def validate (s : Settings α) : Except (SettingsError α) (Settings α) :=
  match s.invalid? with
  | some m => .error (.invalid m.1 m.2)
  | none => .ok s

/-- The names of the fields in their order. -/
def fieldNames : List String :=
  ["auto_redraw", "zoom_rate", "marker_radius_px", "default_scale", "style"]

/-- What is missing has its initial value. -/
def ofJson? (j : Json) : Option (Settings α) := do
  let s : Settings α := .initial
  match ← j.row? fieldNames with
  | [autoRedraw, zoomRate, markerRadius, defaultScale, style] =>
    return {
      autoRedraw := ← Json.optional s.autoRedraw Json.bool? autoRedraw
      zoomRate := ← Json.optional s.zoomRate Json.number? zoomRate
      markerRadius := ← Json.optional s.markerRadius Json.number? markerRadius
      defaultScale := ← Json.optional s.defaultScale Json.number? defaultScale
      style := ← Json.optional s.style Style.ofJson? style }
  | _ => none

def ofText (text : String) : Except (SettingsError α) (Settings α) :=
  if Text.allBlank text then .ok .initial
  else match (Json.read? text).bind ofJson? with
    | none => .error .unreadable
    | some s => s.validate

end Settings

/-- There is no text for settings that cannot be read. -/
def SettingsError.message? {α : Type} [Scalar α] : SettingsError α → Option String
  | .unreadable => none
  | .invalid field value => some s!"invalid config value for {field}: {Scalar.text value}"

end PlotPane
