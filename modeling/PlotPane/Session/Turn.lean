import PlotPane.Session.Action
import PlotPane.Session.Basic

/-!
# Turns

A turn is the work on one event: the session as it is so far, with the calls to the plotter and the
actions for the page that have come of it. The steps below are what the answers to events are made
of; each keeps the session, the plotter and the page in agreement.
-/

namespace PlotPane

structure Turn (α σ : Type) where
  session : Session α σ
  calls : List (Call α)
  actions : List (Action α)

namespace Turn

variable {α σ : Type}

def ofSession (s : Session α σ) : Turn α σ :=
  ⟨s, [], []⟩

def update (t : Turn α σ) (f : Session α σ → Session α σ) : Turn α σ :=
  { t with session := f t.session }

def call (t : Turn α σ) (cs : List (Call α)) : Turn α σ :=
  { t with calls := t.calls ++ cs }

def tell (t : Turn α σ) (as : List (Action α)) : Turn α σ :=
  { t with actions := t.actions ++ as }

/-- Passes a request for a frame on to the plotter, as the scheduler decides. -/
def draw (t : Turn α σ) (request : Scheduler → Outcome × Scheduler) : Turn α σ :=
  let r := request t.session.scheduler
  (t.update fun s => { s with scheduler := r.2 }).call r.1.calls

/-- Asks for a frame after a change. -/
def requestRedraw (t : Turn α σ) : Turn α σ :=
  t.draw Scheduler.request

/-- Draws at the user's wish. -/
def drawNow (t : Turn α σ) : Turn α σ :=
  t.draw Scheduler.drawNow

variable [Scalar α]

def tellLabel (t : Turn α σ) : Turn α σ :=
  t.tell (t.session.cursorLabel?.toList.map .cursorLabel)

/-- Tells where the marker of an entry is, if it has one. -/
def markerActions (e : Entry α) : List (Action α) :=
  (e.content.handle?.bind fun h => h.marker).toList.map fun p => .markerMoved e.id p

def tellMarker (t : Turn α σ) (id : VariableId) : Turn α σ :=
  t.tell ((t.session.registry.find? id).toList.flatMap markerActions)

/-- Tells the value of an entry and where its thumb is, if it is a slider. -/
def sliderActions (e : Entry α) : List (Action α) :=
  e.content.slider?.toList.map fun s => .sliderChanged e.id s.value s.position

def tellSlider (t : Turn α σ) (id : VariableId) : Turn α σ :=
  t.tell ((t.session.registry.find? id).toList.flatMap sliderActions)

def tellAdded (t : Turn α σ) (id : VariableId) : Turn α σ :=
  t.tell ((t.session.registry.find? id).toList.map fun e => .added e.toVariable)

def callSlots (t : Turn α σ) : Turn α σ :=
  t.call t.session.registry.slotCalls

/-- Writes the slot of one variable. -/
def callSlot (t : Turn α σ) (id : VariableId) : Turn α σ :=
  match t.session.registry.indexOf? id, t.session.registry.find? id with
  | some index, some e => t.call [.slot index e.content.value.slot]
  | _, _ => t

def placeMarkers (t : Turn α σ) : Turn α σ :=
  t.update fun s => { s with registry := s.registry.placeMarkers s.view s.size }

/-- Gives the plotter a surface for the screen and the resolution. -/
def callSurface (t : Turn α σ) : Turn α σ :=
  match t.session.size with
  | none => t
  | some size =>
    let factor := t.session.view.resolution
    t.call [.resize (Scalar.pixels (size.width * factor)) (Scalar.pixels (size.height * factor)),
      .resolution factor]

/-- The view or the screen is another one: bounds, markers and a frame follow. -/
def viewChanged (t : Turn α σ) : Turn α σ :=
  match t.session.size with
  | none => t
  | some size =>
    let placed := (t.call [.bounds (t.session.view.bounds size)]).placeMarkers
    (placed.tell (placed.session.registry.entries.flatMap markerActions)).requestRedraw

/-- Shown where the plotter rejects an expression and does not say why. -/
def fallbackMessage : String := "compile failed"

/-- Sends the slots, the source and the names, and takes the plotter's verdict. At the user's wish
the plot is drawn even if drawing is not automatic. -/
def compile (compiler : Compiler) (explicit : Bool) (t : Turn α σ) : Turn α σ :=
  let source := t.session.source
  let names := t.session.registry.names
  let sent := t.callSlots.call [.compile source names]
  match compiler source names with
  | .accepted =>
    let ready := (sent.update fun s =>
      { s with compileError := none, scheduler := s.scheduler.setReady true }).tell [.compiled]
    if explicit then ready.drawNow else ready.requestRedraw
  | .rejected message =>
    let shown := if Text.allBlank message then fallbackMessage else message
    (sent.update fun s =>
      { s with compileError := some shown, scheduler := s.scheduler.setReady false }).tell
        [.compileFailed shown]

end Turn

end PlotPane
