import PlotPane.Gesture
import PlotPane.Settings

/-!
# Sessions

The state of a plot that a user works with: the view and the screen, the variables, the gesture
under way, what the plotter was told, and the preferences with the store that keeps them.
-/

namespace PlotPane

structure Session (α σ : Type) where
  settings : Settings α
  store : σ
  view : View α
  /-- The canvas has no size before the page gives it one. -/
  size : Option (ScreenSize α)
  drag : Drag α
  /-- Where the pointer was last seen. -/
  cursor : Option (ScreenPoint α)
  registry : Registry α
  scheduler : Scheduler
  style : Style α
  source : String
  /-- The message of the last compilation, if it failed. -/
  compileError : Option String
  theme : Theme

namespace Session

variable {α σ : Type} [Scalar α]

/-- A session in which nothing has happened. The plotter is told nothing yet. -/
def begun [KeyValueStore σ] (store : σ) (settings : Settings α) : Session α σ where
  settings := settings
  store := store
  view := .atOrigin settings.defaultScale
  size := none
  drag := .idle
  cursor := none
  registry := .empty
  scheduler := .ofAuto settings.autoRedraw
  style := settings.style
  source := Preferences.loadSource store
  compileError := none
  theme := Preferences.loadTheme store

/-- A session over a store, for settings that something can be done with. -/
def ofSettings [KeyValueStore σ] (store : σ) (settings : Settings α) :
    Except (SettingsError α) (Session α σ) :=
  settings.validate.map (begun store)

/-- The visible rectangle, once the canvas has a size. -/
def bounds? (s : Session α σ) : Option (Bounds α) :=
  s.size.map s.view.bounds

/-- The text of the plane point under the cursor. -/
def cursorLabel? (s : Session α σ) : Option String :=
  match s.size, s.cursor with
  | some size, some cursor => some (View.label s.view.scale (s.view.toPlane size cursor))
  | _, _ => none

end Session

end PlotPane
