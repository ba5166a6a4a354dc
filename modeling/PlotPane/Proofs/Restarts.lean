import PlotPane.Proofs.Stores

/-!
# Sessions begun again

A store that takes every write has at all times what the next session is to begin with: the theme,
and the text unless it was emptied. That holds from the beginning, whatever the store had in it, for
a session begins with what it reads there, and it holds after every event, for only the events that
change the text or the theme write, and each writes what it changes.
-/

namespace PlotPane

theorem lookup_setItem (key value other : String) (items : List (String × String)) :
    (setItem key value items).lookup other =
      if other = key then some value else items.lookup other := by
  have hother : other ≠ key → (other == key) = false := beq_false_of_ne
  induction items with
  | nil =>
      rw [setItem, List.lookup_cons]
      by_cases h : other = key
      · simp [h]
      · simp [h, hother h]
  | cons p ps ih =>
      rw [setItem]
      by_cases hp : p.1 = key
      · rw [if_pos hp, List.lookup_cons, List.lookup_cons, hp]
        by_cases h : other = key
        · simp [h]
        · simp [h, hother h]
      · rw [if_neg hp, List.lookup_cons, List.lookup_cons, ih]
        by_cases h : other = key
        · have hkey : (key == p.1) = false := beq_false_of_ne (Ne.symm hp)
          simp [h, hkey]
        · simp [h]

/-- A written key has what was written, every other key what it had. -/
theorem MemoryStore.get?_set (store : MemoryStore) (key value other : String) :
    KeyValueStore.get? (KeyValueStore.set store key value).2 other =
      if other = key then some value else KeyValueStore.get? store other :=
  lookup_setItem key value other store.items

namespace Preferences

theorem themeKey_ne_sourceKey : themeKey ≠ sourceKey := by decide

/-- The text that the next session begins with, when this one ends with `source`. -/
def restored (source : String) : String :=
  if source = "" then defaultSource else source

theorem restored_of_ne {source : String} (h : source ≠ "") : restored source = source :=
  if_neg h

theorem restored_restored (source : String) : restored (restored source) = restored source := by
  by_cases hsource : source = ""
  · rw [hsource]
    decide
  · rw [restored_of_ne hsource, restored_of_ne hsource]

section

variable {σ : Type} [KeyValueStore σ]

theorem loadSource_eq (store : σ) :
    loadSource store = restored ((KeyValueStore.get? store sourceKey).getD "") := by
  rw [loadSource]
  cases KeyValueStore.get? store sourceKey with
  | none => rfl
  | some source => simp only [Option.getD_some, restored, String.isEmpty_iff]

theorem restored_loadSource (store : σ) : restored (loadSource store) = loadSource store := by
  rw [loadSource_eq, restored_restored]

end

variable (store : MemoryStore)

theorem loadSource_saveSource (source : String) :
    loadSource (saveSource store source) = restored source := by
  rw [loadSource_eq, saveSource, MemoryStore.get?_set, if_pos rfl, Option.getD_some]

theorem loadTheme_saveSource (source : String) :
    loadTheme (saveSource store source) = loadTheme store := by
  rw [loadTheme, saveSource, MemoryStore.get?_set, if_neg themeKey_ne_sourceKey, loadTheme]

theorem loadTheme_saveTheme (theme : Theme) : loadTheme (saveTheme store theme) = theme := by
  rw [loadTheme, saveTheme, MemoryStore.get?_set, if_pos rfl]
  cases theme <;> decide

theorem loadSource_saveTheme (theme : Theme) :
    loadSource (saveTheme store theme) = loadSource store := by
  rw [loadSource, saveTheme, MemoryStore.get?_set, if_neg themeKey_ne_sourceKey.symm, loadSource]

end Preferences

namespace Session

variable {α σ : Type}

/-- What is kept for the next session. -/
def preferences (s : Session α σ) : String × Theme :=
  (s.source, s.theme)

/-- What is to be kept after an event. -/
def preferred (s : Session α σ) : Event α → String × Theme
  | .setSource source => (source, s.theme)
  | .setTheme theme => (s.source, theme)
  | .toggleTheme => (s.source, s.theme.toggled)
  | _ => s.preferences

theorem preferred_of_other (s : Session α σ) {e : Event α} (h : e.isPreference = false) :
    s.preferred e = s.preferences := by
  cases e with
  | setSource source => cases h
  | setTheme theme => cases h
  | toggleTheme => cases h
  | _ => rfl

theorem Aside.preferences {s s' : Session α σ} (h : s.Aside s') :
    s'.preferences = s.preferences :=
  congrArg₂ Prod.mk h.source h.theme

variable [Scalar α]

section

variable {compiler : Compiler} {event : Event α} {s s' : Session α σ} {cs : List (Call α)}

theorem Compilation.preferences {wanted : Bool} (h : s.Compilation compiler wanted s' cs) :
    s'.preferences = s.preferences := by
  obtain ⟨error, scheduler, rfl⟩ := h.eq_with
  rfl

theorem Effect.preferences (h : Effect compiler event s s' cs)
    (hevent : event.isPreference = false) : s'.preferences = s.preferences := by
  cases h with
  | preferred h =>
      rw [hevent] at h
      cases h
  | compiled h hc => exact hc.preferences
  | _ => rfl

theorem Responds.preferences (h : s.Responds compiler event s' cs)
    (hevent : event.isPreference = false) : s'.preferences = s.preferences := by
  obtain ⟨s₁, s₂, h₁, heffect, h₂⟩ := h
  rw [h₂.preferences, heffect.preferences hevent, h₁.preferences]

end

variable [KeyValueStore σ] (s : Session α σ) (compiler : Compiler)

theorem preferences_handle_of_other {e : Event α} (he : e.isPreference = false) :
    (s.handle compiler e).session.preferences = s.preferences := by
  rcases e.start_or_other with ⟨width, height, rfl⟩ | hother
  · obtain ⟨s', cs, ds, hr, hc, -⟩ := handle_start compiler s width height
    rw [hc.preferences, hr.preferences rfl]
  · exact (handle_responds compiler s hother).preferences he

theorem preferences_handle (e : Event α) :
    (s.handle compiler e).session.preferences = s.preferred e := by
  cases he : e.isPreference with
  | false => rw [preferences_handle_of_other s compiler he, s.preferred_of_other he]
  | true =>
      cases e with
      | setSource source =>
          rw [handle, setSource]
          split
          · next hsource => rw [Session.preferences, hsource, preferred]
          · rfl
      | setTheme theme => rfl
      | toggleTheme => rfl
      | _ => cases he

end Session

namespace Session

variable {α : Type} [Scalar α]

/-- The store has what the next session is to begin with, and nothing else in it is touched. -/
structure Kept (store : MemoryStore) (s : Session α MemoryStore) : Prop where
  source : Preferences.loadSource s.store = Preferences.restored s.source
  theme : Preferences.loadTheme s.store = s.theme
  others : ∀ key, key ≠ Preferences.sourceKey → key ≠ Preferences.themeKey →
    KeyValueStore.get? s.store key = KeyValueStore.get? store key

variable {store : MemoryStore} {s : Session α MemoryStore}

/-- At first the text may be a default that the store does not have. It is read as that default. -/
theorem kept_begun (store : MemoryStore) (settings : Settings α) :
    (begun store settings).Kept store where
  source := (Preferences.restored_loadSource store).symm
  theme := rfl
  others _ _ _ := rfl

omit [Scalar α] in
theorem Kept.saveSource (h : s.Kept store) (source : String) :
    Kept store { s with source := source, store := Preferences.saveSource s.store source } where
  source := Preferences.loadSource_saveSource s.store source
  theme := (Preferences.loadTheme_saveSource s.store source).trans h.theme
  others key hsource htheme := by
    rw [← h.others key hsource htheme, Preferences.saveSource, MemoryStore.get?_set,
      if_neg hsource]

omit [Scalar α] in
theorem Kept.saveTheme (h : s.Kept store) (theme : Theme) :
    Kept store { s with theme := theme, store := Preferences.saveTheme s.store theme } where
  source := (Preferences.loadSource_saveTheme s.store theme).trans h.source
  theme := Preferences.loadTheme_saveTheme s.store theme
  others key hsource htheme := by
    rw [← h.others key hsource htheme, Preferences.saveTheme, MemoryStore.get?_set,
      if_neg htheme]

omit [Scalar α] in
/-- Only the text, the theme and the store count. -/
theorem Kept.congr {s' : Session α MemoryStore} (h : s.Kept store)
    (hpreferences : s'.preferences = s.preferences) (hstore : s'.store = s.store) :
    s'.Kept store := by
  obtain ⟨hsource, htheme⟩ := Prod.mk.inj hpreferences
  constructor
  · rw [hstore, hsource, h.source]
  · rw [hstore, htheme, h.theme]
  · rw [hstore]
    exact h.others

theorem Kept.handle (h : s.Kept store) (compiler : Compiler) (e : Event α) :
    (s.handle compiler e).session.Kept store := by
  have hpreferences := s.preferences_handle compiler e
  have hstore := s.store_handle compiler e
  cases e with
  | setSource source =>
      rw [written] at hstore
      split at hstore
      · next hsource =>
          -- The text is what it was, and nothing is written.
          refine h.congr (hpreferences.trans ?_) hstore
          rw [preferred, preferences, hsource]
      · exact (h.saveSource source).congr hpreferences hstore
  | setTheme theme => exact (h.saveTheme theme).congr hpreferences hstore
  | toggleTheme => exact (h.saveTheme s.theme.toggled).congr hpreferences hstore
  | _ => exact h.congr hpreferences hstore

end Session

namespace Transcript

variable {α : Type} [Scalar α]

/-- After every run over a store that takes every write, whatever it had in it at first, the store
has the theme and the text of the session, an emptied text apart, and every other key has what it
had at first. So a session that is begun over the store, with these settings or with others, begins
with the same theme and the same text, or with the default text if it was emptied. -/
theorem run_restores_preferences {store : MemoryStore} {settings : Settings α}
    {s : Session α MemoryStore} (hs : Session.ofSettings store settings = .ok s)
    (steps : List (Step α)) :
    let left := ((ofSession s).run steps).session
    Preferences.loadTheme left.store = left.theme ∧
    Preferences.loadSource left.store =
      (if left.source = "" then Preferences.defaultSource else left.source) ∧
    (∀ key, key ≠ Preferences.sourceKey → key ≠ Preferences.themeKey →
      KeyValueStore.get? left.store key = KeyValueStore.get? store key) ∧
    (∃ again, Session.ofSettings left.store settings = .ok again) ∧
    ∀ (settings' : Settings α) again, Session.ofSettings left.store settings' = .ok again →
      again.theme = left.theme ∧
      (left.source ≠ "" → again.source = left.source) ∧
      (left.source = "" → again.source = Preferences.defaultSource) := by
  intro left
  obtain ⟨hvalid, rfl⟩ := Session.ofSettings_eq_ok_iff.mp hs
  have hkept : left.Kept store :=
    run_induction (P := fun r => r.session.Kept store)
      (fun _ x h => h.handle x.compiler x.event) (Session.kept_begun store settings) steps
  refine ⟨hkept.theme, hkept.source, hkept.others, ?_, ?_⟩
  · exact ⟨_, Session.ofSettings_eq_ok_iff.mpr ⟨hvalid, rfl⟩⟩
  · intro settings' again hagain
    obtain ⟨-, rfl⟩ := Session.ofSettings_eq_ok_iff.mp hagain
    refine ⟨hkept.theme, ?_, ?_⟩
    · intro hsource
      exact hkept.source.trans (Preferences.restored_of_ne hsource)
    · intro hsource
      exact hkept.source.trans (if_pos hsource)

/-- The stored theme is not a known one, and the text is emptied and written again. -/
theorem run_restores_preferences_emptied :
    let accepting : Compiler := fun _ _ => .accepted
    let store : MemoryStore := ⟨[("other", "x"), (Preferences.themeKey, "blue")]⟩
    let s : Session Float MemoryStore := .begun store .initial
    let emptied : List (Step Float) :=
      [⟨accepting, .start 100.0 100.0⟩, ⟨accepting, .setSource Preferences.defaultSource⟩,
        ⟨accepting, .setSource "z"⟩, ⟨accepting, .setSource ""⟩, ⟨accepting, .graph⟩]
    let steps := emptied ++ [⟨accepting, .toggleTheme⟩, ⟨accepting, .setSource "z^2"⟩]
    let early := ((ofSession s).run emptied).session
    let left := ((ofSession s).run steps).session
    Session.ofSettings store .initial = .ok s ∧ s.theme = .dark ∧
      early.source = "" ∧ Preferences.loadSource early.store = Preferences.defaultSource ∧
      left.source = "z^2" ∧ left.theme = .light ∧
      KeyValueStore.get? left.store "other" = some "x" ∧
      ∀ (settings : Settings Float) again, Session.ofSettings left.store settings = .ok again →
        again.source = "z^2" ∧ again.theme = .light := by
  intro accepting store s emptied steps early left
  have hs : Session.ofSettings store .initial = .ok s :=
    Session.ofSettings_eq_ok_iff.mpr ⟨by decide +kernel, rfl⟩
  have hdark : s.theme = .dark := by decide +kernel
  have hemptied : early.source = "" := by decide +kernel
  have hsource : left.source = "z^2" := by decide +kernel
  have htheme : left.theme = .light := by decide +kernel
  have hother : KeyValueStore.get? store "other" = some "x" := by decide +kernel
  obtain ⟨-, hloaded, -⟩ := run_restores_preferences hs emptied
  obtain ⟨-, -, hothers, -, hagain⟩ := run_restores_preferences hs steps
  refine ⟨hs, hdark, hemptied, ?_, hsource, htheme, ?_, ?_⟩
  · exact hloaded.trans (if_pos hemptied)
  · exact (hothers "other" (by decide) (by decide)).trans hother
  · intro settings again h
    obtain ⟨hlight, hkept, -⟩ := hagain settings again h
    have hnonempty : left.source ≠ "" := by
      rw [hsource]
      decide
    exact ⟨(hkept hnonempty).trans hsource, hlight.trans htheme⟩

end Transcript

end PlotPane
