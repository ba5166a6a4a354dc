import PlotPane.Json.Token

/-!
# Reading JSON

Tokens become a value by way of a stack of the containers that are open, so that a value may be
nested to any depth. A text is read from front to back, one character at a time.
-/

namespace PlotPane.Json

/-- An open container with what it holds so far, the last first. -/
inductive Frame where
  | array (items : List Json)
  /-- The value of `key` is still to come. -/
  | object (members : List (Option String × Json)) (key : Option String)

/-- What has been read and what may come next, inside a stack of open containers. -/
inductive Draft where
  /-- A value is due. In an array that was just opened its end may come too. -/
  | value (opened : Bool) (stack : List Frame)
  /-- A key is due. In an object that was just opened its end may come too. -/
  | key (opened : Bool) (members : List (Option String × Json)) (stack : List Frame)
  | colon (members : List (Option String × Json)) (key : Option String) (stack : List Frame)
  /-- A value is complete. -/
  | complete (v : Json) (stack : List Frame)

namespace Draft

def start : Draft := .value false []

def step : Draft → Token → Option Draft
  | .value _ stack, .atom v => some (.complete v stack)
  | .value _ stack, .text s => some (.complete (.str s) stack)
  | .value _ stack, .openArray => some (.value true (.array [] :: stack))
  | .value _ stack, .openObject => some (.key true [] stack)
  | .value true (.array items :: stack), .closeArray =>
    some (.complete (.arr items.reverse) stack)
  | .key _ members stack, .text k => some (.colon members k stack)
  | .key true members stack, .closeObject => some (.complete (.obj members.reverse) stack)
  | .colon members k stack, .colon => some (.value false (.object members k :: stack))
  | .complete v (.array items :: stack), .comma =>
    some (.value false (.array (v :: items) :: stack))
  | .complete v (.array items :: stack), .closeArray =>
    some (.complete (.arr (v :: items).reverse) stack)
  | .complete v (.object members k :: stack), .comma =>
    some (.key false ((k, v) :: members) stack)
  | .complete v (.object members k :: stack), .closeObject =>
    some (.complete (.obj ((k, v) :: members).reverse) stack)
  | _, _ => none

/-- The value, if it is complete and no container is open. -/
def result? : Draft → Option Json
  | .complete v [] => some v
  | _ => none

end Draft

/-- A scanner with what its tokens have come to. -/
structure Reader where
  scanner : Scanner
  draft : Draft

namespace Reader

def start : Reader := ⟨.gap, .start⟩

def step (r : Reader) (c : Char) : Option Reader :=
  (r.scanner.step c).bind fun s =>
    (s.2.foldlM Draft.step r.draft).map fun draft => ⟨s.1, draft⟩

def finish (r : Reader) : Option Json :=
  r.scanner.finish.bind fun ts => (ts.foldlM Draft.step r.draft).bind Draft.result?

end Reader

def readChars? (cs : List Char) : Option Json :=
  (cs.foldlM Reader.step .start).bind Reader.finish

/-- The value of a JSON text. Blanks around it are allowed, and nothing may follow it. -/
def read? (s : String) : Option Json :=
  readChars? s.toList

end PlotPane.Json
