import PlotPane.Variable.Basic
import PlotPane.Variable.Handle

/-!
# The registry of variables

The variables in the order of their creation, which is the order of their slots in the plotter. A
point is kept together with its handle, so that the two cannot part. Identities are counted up, so
that none comes again before the counter has gone through all of its values.
-/

namespace PlotPane

/-- A variable as the registry keeps it. -/
inductive Content (α : Type) where
  | slider (s : Slider α)
  | point (z : PlanePoint α) (handle : PointHandle α)
  deriving DecidableEq, Repr

structure Entry (α : Type) where
  id : VariableId
  name : String
  content : Content α
  deriving DecidableEq, Repr

structure Registry (α : Type) where
  entries : List (Entry α)
  nextId : UInt32
  deriving DecidableEq, Repr

/-- What an edit changed. -/
inductive Edit where
  | name
  | value
  | range
  deriving DecidableEq, Repr

variable {α : Type}

namespace Content

def value : Content α → Value α
  | .slider s => .slider s
  | .point z _ => .point z

def handle? : Content α → Option (PointHandle α)
  | .slider _ => none
  | .point _ h => some h

def slider? : Content α → Option (Slider α)
  | .slider s => some s
  | .point _ _ => none

def isPoint (c : Content α) : Bool :=
  c.handle?.isSome

/-- Moves the marker of a point to where it is drawn. -/
def placeMarker [Scalar α] (c : Content α) (v : View α) (size : Option (ScreenSize α)) :
    Content α :=
  match c with
  | .slider s => .slider s
  | .point z h => .point z (h.placeMarker z v size)

end Content

namespace Entry

def toVariable (e : Entry α) : Variable α :=
  ⟨e.id, e.name, e.content.value⟩

variable [Scalar α]

/-- Text typed into a field. A number that cannot be read is zero, and the range of a slider never
changes its value. -/
def edit (e : Entry α) (field : Field) (text : String) : Except VariableError (Edit × Entry α) :=
  let number : α := Scalar.ofText text
  match field, e.content with
  | .name, _ => .ok (.name, { e with name := text })
  | .value, .slider s => .ok (.value, { e with content := .slider { s with value := number } })
  | .min, .slider s => .ok (.range, { e with content := .slider { s with min := number } })
  | .max, .slider s => .ok (.range, { e with content := .slider { s with max := number } })
  | .step, .slider s => .ok (.range, { e with content := .slider { s with step := number } })
  | .re, .point z h =>
    .ok (.value, { e with content := .point { z with re := number } (h.setText .re text) })
  | .im, .point z h =>
    .ok (.value, { e with content := .point { z with im := number } (h.setText .im text) })
  | field, _ => .error (.noField e.id field)

/-- The thumb of a slider moved to `raw`. The value it takes is in the range. -/
def slide (e : Entry α) (raw : α) : Except VariableError (α × Entry α) :=
  match e.content with
  | .slider s =>
    let value := s.clamp (Scalar.finiteOrZero raw)
    .ok (value, { e with content := .slider { s with value := value } })
  | .point _ _ => .error (.noField e.id .value)

/-- Moves a point, and its handle with it. -/
def setPoint (e : Entry α) (z : PlanePoint α) (v : View α) (size : Option (ScreenSize α)) :
    Except VariableError (Unit × Entry α) :=
  match e.content with
  | .slider _ => .error (.noField e.id .re)
  | .point _ h =>
    let moved := z.finiteOrZero
    .ok ((), { e with content := .point moved (h.sync moved v size) })

end Entry

namespace Registry

/-- The slots that the plotter has. -/
def capacity : Nat := 8

def empty : Registry α := ⟨[], 0⟩

def isFull (r : Registry α) : Bool :=
  decide (capacity ≤ r.entries.length)

def find? (r : Registry α) (id : VariableId) : Option (Entry α) :=
  r.entries.find? fun e => e.id == id

def handle? (r : Registry α) (id : VariableId) : Option (PointHandle α) :=
  (r.find? id).bind fun e => e.content.handle?

def indexOf? (r : Registry α) (id : VariableId) : Option Nat :=
  r.entries.findIdx? fun e => e.id == id

def names (r : Registry α) : List String :=
  r.entries.map Entry.name

def toVariables (r : Registry α) : List (Variable α) :=
  r.entries.map Entry.toVariable

/-- Appends an entry with a fresh identity, unless all slots are taken. -/
def push (r : Registry α) (name : String) (content : Content α) :
    Option (VariableId × Registry α) :=
  if r.isFull then none
  else
    let id : VariableId := ⟨r.nextId⟩
    some (id, { entries := r.entries ++ [⟨id, name, content⟩], nextId := r.nextId + 1 })

/-- Takes a variable out. Those after it move up one slot. -/
def remove (r : Registry α) (id : VariableId) : Option (Variable α × Registry α) :=
  (r.find? id).map fun e =>
    (e.toVariable, { r with entries := r.entries.eraseP fun e => e.id == id })

/-- Changes the entry with a given identity by a step that may refuse. -/
def updateEntries {β : Type} (id : VariableId) (f : Entry α → Except VariableError (β × Entry α)) :
    List (Entry α) → Except VariableError (β × List (Entry α))
  | [] => .error (.unknown id)
  | e :: es =>
    if e.id = id then (f e).map fun r => (r.1, r.2 :: es)
    else (updateEntries id f es).map fun r => (r.1, e :: r.2)

def update {β : Type} (r : Registry α) (id : VariableId)
    (f : Entry α → Except VariableError (β × Entry α)) :
    Except VariableError (β × Registry α) :=
  (updateEntries id f r.entries).map fun u => (u.1, { r with entries := u.2 })

variable [Scalar α]

def addSlider (r : Registry α) (name : String) (s : Slider α) : Option (VariableId × Registry α) :=
  r.push name (.slider s.finiteOrZero)

def addPoint (r : Registry α) (name : String) (z : PlanePoint α) :
    Option (VariableId × Registry α) :=
  r.push name (.point z.finiteOrZero (.ofPoint z.finiteOrZero))

def edit (r : Registry α) (id : VariableId) (field : Field) (text : String) :
    Except VariableError (Edit × Registry α) :=
  r.update id fun e => e.edit field text

def slide (r : Registry α) (id : VariableId) (raw : α) : Except VariableError (α × Registry α) :=
  r.update id fun e => e.slide raw

def setPoint (r : Registry α) (id : VariableId) (z : PlanePoint α) (v : View α)
    (size : Option (ScreenSize α)) : Except VariableError (Unit × Registry α) :=
  r.update id fun e => e.setPoint z v size

/-- Where the thumb of a slider sits. -/
def position? (r : Registry α) (id : VariableId) : Option α :=
  ((r.find? id).bind fun e => e.content.slider?).map Slider.position

/-- Moves every marker to where its point is drawn. -/
def placeMarkers (r : Registry α) (v : View α) (size : Option (ScreenSize α)) : Registry α :=
  { r with entries := r.entries.map fun e => { e with content := e.content.placeMarker v size } }

/-- The point whose marker is within `radius` pixels of `p`. Later markers lie above earlier ones.
-/
def markerAt (r : Registry α) (p : ScreenPoint α) (radius : α) : Option VariableId :=
  let touched (e : Entry α) : Bool :=
    match e.content.handle? with
    | none => false
    | some h => h.hit p radius
  (r.entries.reverse.find? touched).map Entry.id

/-- The numbers for the slots of the plotter, in order. -/
def slots (r : Registry α) : List (PlanePoint α) :=
  r.entries.map fun e => e.content.value.slot

end Registry

end PlotPane
