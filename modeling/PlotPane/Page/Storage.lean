import PlotPane.Preferences

/-!
# The storage of a page

A browser may have no storage to offer, or refuse it, or fail at any read or write. The store over
it answers with what it can.
-/

namespace PlotPane

/-- A value that the page's code threw. -/
inductive Thrown where
  | error (message : String)
  | text (message : String)
  | other
  deriving DecidableEq, Repr

/-- What there is to say about it, which may be nothing. -/
def Thrown.message : Thrown → String
  | .error message => message
  | .text message => message
  | .other => ""

/-- The items that a browser keeps, and what it throws at reads and at writes if it does. -/
structure BrowserStorage where
  items : List (String × String)
  readFault : Option Thrown
  writeFault : Option Thrown
  deriving DecidableEq, Repr

/-- What comes of asking the browser for its storage. -/
inductive StorageOffer where
  | noWindow
  | refused (e : Thrown)
  | absent
  | granted (storage : BrowserStorage)
  deriving DecidableEq, Repr

/-- A store over the storage of the page, if there is one. -/
structure PageStore where
  storage : Option BrowserStorage
  deriving DecidableEq, Repr

namespace PageStore

def ofOffer : StorageOffer → PageStore
  | .granted storage => ⟨some storage⟩
  | .noWindow | .refused _ | .absent => ⟨none⟩

def get? (s : PageStore) (key : String) : Option String :=
  match s.storage with
  | none => none
  | some storage => if storage.readFault.isSome then none else storage.items.lookup key

def set (s : PageStore) (key value : String) : Except StoreError Unit × PageStore :=
  match s.storage with
  | none => (.error .unavailable, s)
  | some storage =>
    match storage.writeFault with
    | some e => (.error (.writeFailed key e.message), s)
    | none => (.ok (), ⟨some { storage with items := setItem key value storage.items }⟩)

instance : KeyValueStore PageStore where
  get? := get?
  set := set

end PageStore

end PlotPane
