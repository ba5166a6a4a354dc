import PlotPane.Session.Event
import PlotPane.Session.Turn

/-!
# Answering events

What a session does with an event. A request that cannot be carried out, such as a resize to nothing
or an edit of a variable that is not there, leaves the session as it was.
-/

namespace PlotPane

/-- What the page learns from an event. -/
inductive Reply (α : Type) where
  | actions (as : List (Action α))
  | outcome (o : Outcome)
  | nothing
  | refused (e : VariableError)
  deriving DecidableEq, Repr

structure Answer (α σ : Type) where
  session : Session α σ
  calls : List (Call α)
  reply : Reply α

variable {α σ : Type}

/-- The actions of a turn are the reply. -/
def Turn.answer (t : Turn α σ) : Answer α σ :=
  ⟨t.session, t.calls, .actions t.actions⟩

namespace Turn

variable [Scalar α]

def resize (width height : α) (t : Turn α σ) : Turn α σ :=
  match ScreenSize.ofSides width height with
  | .error _ => t
  | .ok size =>
    (t.update fun s => { s with size := some size }).callSurface.viewChanged.tellLabel

def start (compiler : Compiler) (width height : α) (t : Turn α σ) : Turn α σ :=
  let styled := (t.call t.session.style.calls).tell [.themeChanged t.session.theme]
  (styled.resize width height).compile compiler true

def setResolution (exponent : α) (t : Turn α σ) : Turn α σ :=
  match t.session.view.setResolution (Scalar.exp2 exponent) with
  | .error _ => t
  | .ok view => (t.update fun s => { s with view := view }).callSurface.viewChanged

def resetView (t : Turn α σ) : Turn α σ :=
  match t.session.view.reset t.session.settings.defaultScale with
  | .error _ => t
  | .ok view => (t.update fun s => { s with view := view }).viewChanged.tellLabel

def setCursor (position : ScreenPoint α) (t : Turn α σ) : Turn α σ :=
  t.update fun s => { s with cursor := some position }

def setDrag (drag : Drag α) (t : Turn α σ) : Turn α σ :=
  t.update fun s => { s with drag := drag }

/-- The primary button grabs the marker under the pointer, or else the background. -/
def pointerDown (position : ScreenPoint α) (button : Button) (t : Turn α σ) : Turn α σ :=
  let seen := t.setCursor position
  if button = .primary then
    match seen.session.registry.markerAt position seen.session.settings.markerRadius with
    | some id => seen.setDrag (.point id)
    | none => seen.setDrag (.panning position)
  else seen

def pan (delta : ScreenPoint α) (t : Turn α σ) : Turn α σ :=
  match t.session.size with
  | none => t
  | some size =>
    match t.session.view.pan delta size with
    | .error _ => t
    | .ok view => (t.update fun s => { s with view := view }).viewChanged

/-- Moves a point to what is drawn at a position. A drag of something else ends. -/
def dragPoint (id : VariableId) (position : ScreenPoint α) (t : Turn α σ) : Turn α σ :=
  match t.session.size with
  | none => t
  | some size =>
    let z := t.session.view.toPlane size position
    match t.session.registry.setPoint id z t.session.view (some size) with
    | .error _ => t.setDrag .idle
    | .ok (_, registry) =>
      let moved := t.update fun s => { s with registry := registry }
      let fields := (registry.handle? id).toList.map fun h => .pointFields id h.reText h.imText
      (((moved.tell fields).tellMarker id).callSlot id).requestRedraw

/-- The background remembers the new position even if the view cannot follow. -/
def pointerMove (position : ScreenPoint α) (t : Turn α σ) : Turn α σ :=
  let dragged :=
    match t.session.drag with
    | .idle => t
    | .panning last =>
      (t.setDrag (.panning position)).pan ⟨position.x - last.x, position.y - last.y⟩
    | .point id => t.dragPoint id position
  (dragged.setCursor position).tellLabel

def wheel (position : ScreenPoint α) (delta : WheelDelta α) (t : Turn α σ) : Turn α σ :=
  let seen := t.setCursor position
  match seen.session.size with
  | none => seen
  | some size =>
    match seen.session.view.zoom position delta.dy seen.session.settings.zoomRate size with
    | .error _ => seen.tellLabel
    | .ok (_, view) => (seen.update fun s => { s with view := view }).viewChanged.tellLabel

/-- Ctrl and C copy the label. -/
def keyDown (key : Key) (modifiers : Modifiers) (t : Turn α σ) : Turn α σ :=
  if modifiers.ctrl && key.is "c" then t.tell (t.session.cursorLabel?.toList.map .copy) else t

def setTheme [KeyValueStore σ] (theme : Theme) (t : Turn α σ) : Turn α σ :=
  (t.update fun s => { s with theme := theme, store := Preferences.saveTheme s.store theme }).tell
    [.themeChanged theme]

def addSlider (compiler : Compiler) (name : String) (s : Slider α) (t : Turn α σ) : Turn α σ :=
  match t.session.registry.addSlider name s with
  | none => t
  | some (id, registry) =>
    ((t.update fun s => { s with registry := registry }).tellAdded id).compile compiler false

def addPoint (compiler : Compiler) (name : String) (z : PlanePoint α) (t : Turn α σ) : Turn α σ :=
  match t.session.registry.addPoint name z with
  | none => t
  | some (id, registry) =>
    let placed := (t.update fun s => { s with registry := registry }).placeMarkers
    ((placed.tellAdded id).tellMarker id).compile compiler false

/-- A drag of the point that is taken out ends. -/
def removeVariable (compiler : Compiler) (id : VariableId) (t : Turn α σ) : Turn α σ :=
  match t.session.registry.remove id with
  | none => t
  | some (_, registry) =>
    let drag := if t.session.drag.point? = some id then .idle else t.session.drag
    ((t.update fun s => { s with registry := registry, drag := drag }).tell [.removed id]).compile
      compiler false

/-- A new name means that the expression is compiled again; a new value is sent to the plotter. -/
def editVariable (compiler : Compiler) (id : VariableId) (field : Field) (text : String)
    (t : Turn α σ) : Except VariableError (Turn α σ) :=
  (t.session.registry.edit id field text).map fun r =>
    let edited := t.update fun s => { s with registry := r.2 }
    match r.1 with
    | .name => edited.compile compiler false
    | .value => (((edited.placeMarkers.tellMarker id).tellSlider id).callSlots).requestRedraw
    | .range => edited.tellSlider id

def slideVariable (id : VariableId) (raw : α) (t : Turn α σ) : Except VariableError (Turn α σ) :=
  (t.session.registry.slide id raw).map fun r =>
    (((t.update fun s => { s with registry := r.2 }).tellSlider id).callSlots).requestRedraw

end Turn

namespace Session

variable [Scalar α]

/-- The answer to a request for a frame is what became of it. -/
def drawAnswer (s : Session α σ) (calls : List (Call α))
    (request : Scheduler → Outcome × Scheduler) : Answer α σ :=
  let drawn := ((Turn.ofSession s).call calls).draw request
  ⟨drawn.session, drawn.calls, .outcome (request s.scheduler).1⟩

/-- Changes the style and tells the plotter of the change. -/
def restyle (s : Session α σ) (style : Style α) (call : Call α) : Answer α σ :=
  drawAnswer { s with style := style } [call] Scheduler.request

/-- An edit that is refused changes nothing. -/
def answerOr (s : Session α σ) : Except VariableError (Turn α σ) → Answer α σ
  | .ok t => t.answer
  | .error e => ⟨s, [], .refused e⟩

/-- Keeps the text of the expression. It is not compiled before the user asks. -/
def setSource [KeyValueStore σ] (s : Session α σ) (source : String) : Session α σ :=
  if s.source = source then s
  else { s with source := source, store := Preferences.saveSource s.store source }

/-- What a session does with an event, given what the plotter says of an expression. -/
def handle [KeyValueStore σ] (compiler : Compiler) (s : Session α σ) : Event α → Answer α σ
  | .start width height => ((Turn.ofSession s).start compiler width height).answer
  | .resize width height => ((Turn.ofSession s).resize width height).answer
  | .setResolution exponent => ((Turn.ofSession s).setResolution exponent).answer
  | .resetView => (Turn.ofSession s).resetView.answer
  | .pointerDown position button _ => ((Turn.ofSession s).pointerDown position button).answer
  | .pointerMove position _ => ((Turn.ofSession s).pointerMove position).answer
  | .pointerUp position _ _ => (((Turn.ofSession s).setCursor position).setDrag .idle).answer
  | .pointerLeave => ((Turn.ofSession s).setDrag .idle).answer
  | .wheel position delta _ => ((Turn.ofSession s).wheel position delta).answer
  | .keyDown key modifiers => ((Turn.ofSession s).keyDown key modifiers).answer
  | .setSource source => ⟨s.setSource source, [], .nothing⟩
  | .graph => ((Turn.ofSession s).compile compiler true).answer
  | .redraw => s.drawAnswer [] Scheduler.drawNow
  | .setAutoRedraw auto => ⟨{ s with scheduler := s.scheduler.setAuto auto }, [], .nothing⟩
  | .setShading x =>
    s.restyle { s.style with shading := clampIntensity x } (.shading (clampIntensity x))
  | .setContour x =>
    s.restyle { s.style with contour := clampIntensity x } (.contour (clampIntensity x))
  | .setDecorations mask => s.restyle { s.style with decorations := mask } (.decorations mask)
  | .setColoring mode => s.restyle { s.style with coloring := mode } (.coloring mode)
  | .setGrid mode => s.restyle { s.style with grid := mode } (.grid mode)
  | .setTheme theme => ((Turn.ofSession s).setTheme theme).answer
  | .toggleTheme => ((Turn.ofSession s).setTheme s.theme.toggled).answer
  | .addSlider name slider => ((Turn.ofSession s).addSlider compiler name slider).answer
  | .addPoint name z => ((Turn.ofSession s).addPoint compiler name z).answer
  | .removeVariable id => ((Turn.ofSession s).removeVariable compiler id).answer
  | .editVariable id field text =>
    s.answerOr ((Turn.ofSession s).editVariable compiler id field text)
  | .slideVariable id raw => s.answerOr ((Turn.ofSession s).slideVariable id raw)

end Session

end PlotPane
