/-!
# Preferences

The source text and the theme are kept in a store of texts. Reading falls back to a default, and a
write that fails is let go: keeping a preference never stands in the way of an edit.
-/

namespace PlotPane

inductive StoreError where
  | unavailable
  | writeFailed (key message : String)
  deriving DecidableEq, Repr

def StoreError.message : StoreError → String
  | .unavailable => "storage unavailable"
  | .writeFailed key message => s!"storage write failed for key {key}: {message}"

class KeyValueStore (σ : Type) where
  get? : σ → String → Option String
  set : σ → String → String → Except StoreError Unit × σ

/-- The pairs with the value of `key` replaced, or with a new pair at the end. -/
def setItem (key value : String) : List (String × String) → List (String × String)
  | [] => [(key, value)]
  | p :: ps => if p.1 = key then (key, value) :: ps else p :: setItem key value ps

/-- A store that takes every write. -/
structure MemoryStore where
  items : List (String × String)
  deriving DecidableEq, Repr

instance : KeyValueStore MemoryStore where
  get? s key := s.items.lookup key
  set s key value := (.ok (), ⟨setItem key value s.items⟩)

inductive Theme where
  | light
  | dark
  deriving DecidableEq, Repr

namespace Theme

def name : Theme → String
  | .light => "light"
  | .dark => "dark"

def toggled : Theme → Theme
  | .light => .dark
  | .dark => .light

end Theme

namespace Preferences

def sourceKey : String := "editor_content"

def themeKey : String := "theme"

def defaultSource : String := "f(z) = 6z^2 - 2i - 1\nplot(z) = f(1 + sin(z)) / 8"

variable {σ : Type} [KeyValueStore σ]

/-- The stored source, unless there is none or it is empty. -/
def loadSource (store : σ) : String :=
  match KeyValueStore.get? store sourceKey with
  | some source => if source.isEmpty then defaultSource else source
  | none => defaultSource

def saveSource (store : σ) (source : String) : σ :=
  (KeyValueStore.set store sourceKey source).2

/-- Light where nothing is stored. Whatever is stored and is not `light` means dark. -/
def loadTheme (store : σ) : Theme :=
  match KeyValueStore.get? store themeKey with
  | none => .light
  | some name => if name = Theme.light.name then .light else .dark

def saveTheme (store : σ) (theme : Theme) : σ :=
  (KeyValueStore.set store themeKey theme.name).2

end Preferences

end PlotPane
