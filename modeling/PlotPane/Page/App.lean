import PlotPane.Page.Storage
import PlotPane.Wire.Action

/-!
# The application on a page

A session behind the page that shows it. The page sends requests and gets texts back: the actions of
an event, the status, or the variables, all in JSON. What goes wrong is thrown as a text.
-/

namespace PlotPane

/-- The canvas has its size in whole pixels. -/
structure App (α σ : Type) where
  session : Session α σ
  canvas : Int × Int

inductive Request (α : Type) where
  /-- Begin with the canvas as it is. -/
  | start
  /-- The canvas may have another size. -/
  | resized
  | event (e : Event α)
  /-- Text for a field that the page calls by name. -/
  | edit (id : VariableId) (field text : String)
  | status
  | listVariables
  deriving DecidableEq, Repr

inductive Returned where
  | nothing
  | text (s : String)
  | thrown (message : String)
  deriving DecidableEq, Repr

/-- The plotter of a page throws where an expression does not compile. -/
def Compiler.ofThrowing (load : String → List String → Except Thrown Unit) : Compiler :=
  fun source names =>
    match load source names with
    | .ok () => .accepted
    | .error e => .rejected e.message

variable {α σ : Type} [Scalar α]

/-- Outcomes of a request for a frame stay inside. -/
def Reply.returned : Reply α → Returned
  | .actions as => .text (Action.listText as)
  | .outcome _ => .nothing
  | .nothing => .nothing
  | .refused e => .thrown e.message

namespace Session

def statusJson (s : Session α σ) : Json :=
  .record [
    ("bounds", match s.bounds? with
      | some b => b.toJson
      | none => .null),
    ("scale", .ofScalar s.view.scale),
    ("auto_redraw", .bool s.scheduler.auto),
    ("redraw_pending", .bool s.scheduler.pending),
    ("compile_error", match s.compileError with
      | some message => .text message
      | none => .null),
    ("theme", s.theme.toJson),
    ("source", .text s.source)]

def variablesJson (s : Session α σ) : Json :=
  .arr (s.registry.toVariables.map Variable.toJson)

end Session

namespace App

/-- The answer to an event, with the calls that it makes to the plotter. -/
def respond [KeyValueStore σ] (compiler : Compiler) (app : App α σ) (e : Event α) :
    App α σ × List (Call α) × Returned :=
  let a := app.session.handle compiler e
  ({ app with session := a.session }, a.calls, a.reply.returned)

/-- An unknown name of a field is found before an unknown variable. -/
def handle [KeyValueStore σ] (compiler : Compiler) (app : App α σ) :
    Request α → App α σ × List (Call α) × Returned
  | .start => app.respond compiler (.start (Scalar.ofInt app.canvas.1) (Scalar.ofInt app.canvas.2))
  | .resized =>
    app.respond compiler (.resize (Scalar.ofInt app.canvas.1) (Scalar.ofInt app.canvas.2))
  | .event e => app.respond compiler e
  | .edit id field text =>
    match Field.ofName? field with
    | some f => app.respond compiler (.editVariable id f text)
    | none => (app, [], .thrown s!"unknown field: {field}")
  | .status => (app, [], .text app.session.statusJson.render)
  | .listVariables => (app, [], .text app.session.variablesJson.render)

end App

end PlotPane
