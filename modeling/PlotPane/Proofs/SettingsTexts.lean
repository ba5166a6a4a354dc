import PlotPane.Proofs.JsonTexts
import PlotPane.Proofs.Records
import PlotPane.Proofs.Spans
import PlotPane.Proofs.Views
import Mathlib.Logic.Relation

/-!
# Settings do not depend on how they are written

The settings and the style in them are two records, one inside the other. What is read from a text
depends on the values of their fields and on nothing else about it: not on the order of the members,
not on what other members there are, and not on whether a record is an object or an array. But all
keys have to be texts: with a key that holds a lone surrogate nothing is read. Settings that are
read are fit for use: the measures among them are positive normal doubles, and a session begins with
them whatever the store holds.
-/

namespace PlotPane

/-! Texts that are not blank -/

namespace Json

theorem Written.exists_not_blank {cs : List Char} {v : Json} (h : Written cs (.value v)) :
    ∃ c ∈ cs, Text.isBlank c = false := by
  cases h with
  | null => exact ⟨'n', List.mem_cons_self, rfl⟩
  | isTrue => exact ⟨'t', List.mem_cons_self, rfl⟩
  | isFalse => exact ⟨'f', List.mem_cons_self, rfl⟩
  | number h =>
    have hvisible := h.not_blank
    obtain ⟨c, hc⟩ := List.exists_mem_of_ne_nil _ h.ne_nil
    exact ⟨c, hc, hvisible c hc⟩
  | string h =>
    cases h
    exact ⟨'"', List.mem_cons_self, rfl⟩
  | emptyArray => exact ⟨'[', List.mem_cons_self, rfl⟩
  | array => exact ⟨'[', List.mem_cons_self, rfl⟩
  | emptyObject => exact ⟨'{', List.mem_cons_self, rfl⟩
  | object => exact ⟨'{', List.mem_cons_self, rfl⟩

theorem Written.all_isBlank {cs : List Char} {v : Json} (h : Written cs (.padded v)) :
    cs.all Text.isBlank = false := by
  cases h with
  | padded _ h _ =>
    obtain ⟨c, hc, hvisible⟩ := h.exists_not_blank
    refine List.all_eq_false.mpr ⟨c, ?_, ne_true_of_eq_false hvisible⟩
    exact List.mem_append_right _ (List.mem_append_left _ hc)

end Json

/-! Positive normal doubles -/

namespace Double

open Float.Model

/-- A positive normal double, by its sign and its exponent field. -/
structure IsPositiveNormal (x : Float) : Prop where
  positive : isNegative x = false
  normal : 0 < biased x
  finite : biased x < topExponent

/-- A positive double with a given mantissa and exponent is its own absolute value. -/
theorem unpack_abs {x : Float} {m : ℕ} {e : ℤ} {hm : 0 < m} (hfits : Fits m e)
    (hx : x.toModel.unpack = .finite .positive m e hm) :
    x.abs.toModel.unpack = .finite .positive m e hm := by
  have hpack : x.abs.toModel.unpack = (pack x.toModel.unpack.abs).unpack := rfl
  rw [hpack, hx]
  exact unpack_pack_finite hm hfits

/-- A measure stands at the least normal double or above it. -/
theorem exists_unpack_eq_of_isMeasure {x : Float} (h : Scalar.isMeasure x = true) :
    ∃ m e hm, x.isFinite = true ∧ x.toModel.unpack = .finite .positive m e hm ∧
      (exponentWeight : ℤ) ≤ (e + 1074) * exponentWeight + m := by
  obtain ⟨hnormal, hpos⟩ := Scalar.isMeasure_iff.mp h
  obtain ⟨hfinite, hleast⟩ := Bool.and_eq_true_iff.mp hnormal
  obtain ⟨m, e, hm, hx⟩ := exists_unpack_eq hfinite hpos
  have hfits : Fits m e := by
    have hcanonical := canonical_of_isFinite hfinite
    rwa [hx] at hcanonical
  have habs := unpack_abs hfits hx
  have hcanonical : Canonical x.abs.toModel.unpack := by
    rw [habs]
    exact hfits
  have hle := of_decide_eq_true hleast
  rw [le_iff_place_le (canonical_of_isFinite (by decide +kernel)) hcanonical, habs] at hle
  exact ⟨m, e, hm, hfinite, hx, hle⟩

theorem isPositiveNormal_of_isMeasure {x : Float} (h : Scalar.isMeasure x = true) :
    IsPositiveNormal x := by
  obtain ⟨m, e, hm, hfinite, hx, hplace⟩ := exists_unpack_eq_of_isMeasure h
  have htop := biased_lt_of_isFinite hfinite
  rw [unpack_eq, if_neg htop.ne] at hx
  split at hx
  · cases hx
  · injection hx with hsign hmantissa hexponent
    refine ⟨?_, ?_, htop⟩
    · by_contra hneg
      rw [sign, if_pos (eq_true_of_ne_false hneg)] at hsign
      cases hsign
    · -- With the least exponent field the mantissa is the fraction, short of the least normal one.
      by_contra hzero
      have hbiased : biased x = 0 := by omega
      have hfraction : fraction x < exponentWeight := Nat.mod_lt _ (by decide)
      have hm' : m = fraction x := by
        rw [← hmantissa]
        exact if_pos hbiased
      have he : e + 1074 = 0 := by
        rw [← hexponent, magnitude, hbiased]
        rfl
      rw [he, zero_mul, zero_add] at hplace
      omega

end Double

/-! Styles -/

theorem Style.ofJson?_eq_of_respelled {j j' : Json} (h : Json.Respelled Style.fieldNames j j') :
    (Style.ofJson? j : Option (Style Float)) = Style.ofJson? j' := by
  rw [Style.ofJson?, Style.ofJson?, h.row?_eq (by decide)]

theorem Style.ofJson?_of_loneKeyed {j : Json} (h : j.LoneKeyed) :
    (Style.ofJson? j : Option (Style Float)) = none := by
  rw [Style.ofJson?, h.row?_eq_none]
  rfl

namespace Settings

/-- One change in the way settings are written: of the settings themselves, or of the style in
them. -/
inductive Respelled : Json → Json → Prop
  | fields {j j' : Json} (h : Json.Respelled fieldNames j j') : Respelled j j'
  | style {v v' : Json} (h : Json.Respelled Style.fieldNames v v')
      (before after : List (Option String × Json)) :
      Respelled (.obj (before ++ (some "style", v) :: after))
        (.obj (before ++ (some "style", v') :: after))
  | fifth {v v' : Json} (h : Json.Respelled Style.fieldNames v v') (a b c d : Json) :
      Respelled (.arr [a, b, c, d, v]) (.arr [a, b, c, d, v'])

/-- Settings in which a key holds a lone surrogate: one of their own, or one of the style. -/
inductive LoneKeyed : Json → Prop
  | fields {j : Json} (h : j.LoneKeyed) : LoneKeyed j
  | style {v : Json} (h : v.LoneKeyed) (before after : List (Option String × Json)) :
      LoneKeyed (.obj (before ++ (some "style", v) :: after))
  | fifth {v : Json} (h : v.LoneKeyed) (a b c d : Json) : LoneKeyed (.arr [a, b, c, d, v])

/-- The row of settings with a style in front. -/
theorem row?_style_cons {v : Json} {ms : List (Option String × Json)}
    (h : Json.Keyed fieldNames ((some "style", v) :: ms)) :
    Json.row? fieldNames (.obj ((some "style", v) :: ms)) =
      some [Json.member? "auto_redraw" ms, Json.member? "zoom_rate" ms,
        Json.member? "marker_radius_px" ms, Json.member? "default_scale" ms, some v] := by
  rw [Json.row?_obj_of_keyed h, fieldNames]
  simp only [List.map_cons, List.map_nil, Json.member?_cons_self]
  rw [Json.member?_cons_of_ne (by decide), Json.member?_cons_of_ne (by decide),
    Json.member?_cons_of_ne (by decide), Json.member?_cons_of_ne (by decide)]

section

variable {v v' : Json} (h : (Style.ofJson? v : Option (Style Float)) = Style.ofJson? v')

include h

theorem ofJson?_congr {j j' : Json} {a b c d : Option Json}
    (hj : j.row? fieldNames = some [a, b, c, d, some v])
    (hj' : j'.row? fieldNames = some [a, b, c, d, some v']) :
    (ofJson? j : Option (Settings Float)) = ofJson? j' := by
  have hstyle (fallback : Style Float) : Json.optional fallback Style.ofJson? (some v) =
      Json.optional fallback Style.ofJson? (some v') := h
  simp only [ofJson?, hj, hj', Option.bind_eq_bind, Option.bind_some, hstyle]

theorem ofJson?_obj_congr (ms : List (Option String × Json)) :
    (ofJson? (.obj ((some "style", v) :: ms)) : Option (Settings Float)) =
      ofJson? (.obj ((some "style", v') :: ms)) := by
  have hkeyed (w : Json) : Json.Keyed fieldNames ((some "style", w) :: ms) ↔
      Json.Keyed fieldNames ((some "style", v) :: ms) := by
    rw [Json.keyed_cons_iff, Json.keyed_cons_iff]
  by_cases hv : Json.Keyed fieldNames ((some "style", v) :: ms)
  · exact ofJson?_congr h (row?_style_cons hv) (row?_style_cons ((hkeyed v').mpr hv))
  · have hrow (w : Json) : Json.row? fieldNames (.obj ((some "style", w) :: ms)) = none :=
      Json.row?_obj_of_not_keyed (mt (hkeyed w).mp hv)
    rw [ofJson?, ofJson?, hrow, hrow]

end

theorem ofJson?_eq_of_row?_eq {j j' : Json} (h : j.row? fieldNames = j'.row? fieldNames) :
    (ofJson? j : Option (Settings Float)) = ofJson? j' := by
  rw [ofJson?, ofJson?, h]

theorem ofJson?_style_middle (v : Json) (before after : List (Option String × Json)) :
    (ofJson? (.obj (before ++ (some "style", v) :: after)) : Option (Settings Float)) =
      ofJson? (.obj ((some "style", v) :: (before ++ after))) :=
  ofJson?_eq_of_row?_eq (Json.row?_perm List.perm_middle)

theorem Respelled.ofJson?_eq {j j' : Json} (h : Respelled j j') :
    (ofJson? j : Option (Settings Float)) = ofJson? j' := by
  cases h with
  | fields h => exact ofJson?_eq_of_row?_eq (h.row?_eq (by decide))
  | style h before after =>
    rw [ofJson?_style_middle, ofJson?_style_middle]
    exact ofJson?_obj_congr (Style.ofJson?_eq_of_respelled h) _
  | fifth h a b c d => exact ofJson?_congr (Style.ofJson?_eq_of_respelled h) rfl rfl

theorem ofJson?_eq_of_eqvGen {j j' : Json} (h : Relation.EqvGen Respelled j j') :
    (ofJson? j : Option (Settings Float)) = ofJson? j' := by
  induction h with
  | rel j j' h => exact h.ofJson?_eq
  | refl j => rfl
  | symm j j' _ ih => exact ih.symm
  | trans j k l _ _ ihj ihk => exact ihj.trans ihk

theorem ofJson?_of_row?_eq_none {j : Json} (h : j.row? fieldNames = none) :
    (ofJson? j : Option (Settings Float)) = none := by
  rw [ofJson?, h]
  rfl

theorem ofJson?_of_style_eq_none {j v : Json} {a b c d : Option Json}
    (hj : j.row? fieldNames = some [a, b, c, d, some v])
    (hv : (Style.ofJson? v : Option (Style Float)) = none) :
    (ofJson? j : Option (Settings Float)) = none := by
  have hstyle (fallback : Style Float) : Json.optional fallback Style.ofJson? (some v) = none := hv
  simp only [ofJson?, hj, Option.bind_eq_bind, Option.bind_some, hstyle, Option.bind_none,
    Option.bind_fun_none]

theorem LoneKeyed.ofJson?_eq_none {j : Json} (h : LoneKeyed j) :
    (ofJson? j : Option (Settings Float)) = none := by
  cases h with
  | fields h => exact ofJson?_of_row?_eq_none (h.row?_eq_none _)
  | @style v h before after =>
    rw [ofJson?_style_middle]
    by_cases hkeyed : Json.Keyed fieldNames ((some "style", v) :: (before ++ after))
    · exact ofJson?_of_style_eq_none (row?_style_cons hkeyed) (Style.ofJson?_of_loneKeyed h)
    · exact ofJson?_of_row?_eq_none (Json.row?_obj_of_not_keyed hkeyed)
  | fifth h a b c d => exact ofJson?_of_style_eq_none rfl (Style.ofJson?_of_loneKeyed h)

theorem ofText_eq_of_denotes {s : String} {j : Json} (h : Json.Denotes s j) :
    (ofText s : Except (SettingsError Float) (Settings Float)) =
      (ofJson? j).elim (.error .unreadable) validate := by
  have hvisible : Text.allBlank s = false := Json.Written.all_isBlank h
  rw [ofText, hvisible, h.read?, Option.bind_some]
  cases (ofJson? j : Option (Settings Float)) with
  | none => rfl
  | some s => rfl

theorem LoneKeyed.ofText_eq {s : String} {j : Json} (h : LoneKeyed j) (hs : Json.Denotes s j) :
    (ofText s : Except (SettingsError Float) (Settings Float)) = .error .unreadable := by
  rw [ofText_eq_of_denotes hs, h.ofJson?_eq_none]
  rfl

theorem invalid?_initial : (initial : Settings Float).invalid? = none := by
  decide +kernel

theorem validate_eq_ok {c : Settings Float} (h : c.invalid? = none) : c.validate = .ok c := by
  rw [validate, h]

theorem denotes_empty : Json.Denotes "{}" (.obj []) :=
  Json.Proper.denotes (.obj (List.forall_mem_nil _))

theorem ofText_of_allBlank {s : String} (h : Text.allBlank s = true) :
    (ofText s : Except (SettingsError Float) (Settings Float)) = ofText "{}" := by
  have hinitial : (ofJson? (.obj []) : Option (Settings Float)) = some initial := rfl
  rw [ofText_eq_of_denotes denotes_empty, hinitial, Option.elim_some,
    validate_eq_ok invalid?_initial, ofText, if_pos h]

theorem invalid?_of_ofText {s : String} {c : Settings Float} (h : ofText s = .ok c) :
    c.invalid? = none := by
  rw [ofText] at h
  split_ifs at h with hblank
  · cases h
    exact invalid?_initial
  · split at h
    · cases h
    · next read _ =>
      rw [validate] at h
      split at h
      · cases h
      · next hvalid =>
        cases h
        exact hvalid

theorem isPositiveNormal_of_invalid? {c : Settings Float} (h : c.invalid? = none) :
    ∀ m ∈ c.measures, Double.IsPositiveNormal m.2 := by
  intro m hm
  apply Double.isPositiveNormal_of_isMeasure
  simpa using List.find?_eq_none.mp h m hm

/-- The settings that are read from a text, or the reason why none are, depend only on the values
of the fields, so long as all keys are texts. A key with a lone surrogate, among those of the
settings or those of the style, makes the text unreadable. A blank text stands for no fields, and
what is read can be used. -/
theorem ofText_depends_on_fields :
    (∀ (s s' : String) (j j' : Json), Json.Denotes s j → Json.Denotes s' j' →
      Relation.EqvGen Respelled j j' →
      (ofText s : Except (SettingsError Float) (Settings Float)) = ofText s') ∧
    (∀ (s : String) (j : Json), Json.Denotes s j → LoneKeyed j →
      (ofText s : Except (SettingsError Float) (Settings Float)) = .error .unreadable) ∧
    (∀ s, Text.allBlank s = true →
      (ofText s : Except (SettingsError Float) (Settings Float)) = ofText "{}") ∧
    ∀ (s : String) (c : Settings Float), ofText s = .ok c →
      Double.IsPositiveNormal c.zoomRate ∧ Double.IsPositiveNormal c.markerRadius ∧
      Double.IsPositiveNormal c.defaultScale ∧
      ∀ (σ : Type) [KeyValueStore σ] (store : σ), ∃ session,
        Session.ofSettings store c = .ok session := by
  refine ⟨?_, fun s j hs hj => hj.ofText_eq hs, fun _ hblank => ofText_of_allBlank hblank, ?_⟩
  · intro s s' j j' hs hs' hj
    rw [ofText_eq_of_denotes hs, ofText_eq_of_denotes hs', ofJson?_eq_of_eqvGen hj]
  · intro s c hc
    have hvalid := invalid?_of_ofText hc
    have hmeasures := isPositiveNormal_of_invalid? hvalid
    simp only [measures, List.forall_mem_cons] at hmeasures
    obtain ⟨hzoom, hradius, hscale, -⟩ := hmeasures
    refine ⟨hzoom, hradius, hscale, ?_⟩
    intro σ _ store
    exact ⟨_, Session.ofSettings_eq_ok_iff.mpr ⟨hvalid, rfl⟩⟩

/-- Settings as an array, with an array for the style. -/
def listed : Json :=
  .arr [.bool false, .ofNat 1, .ofNat 8, .ofNat 2, .arr [.ofNat 1, .ofNat 0]]

def styleMembers : List (Option String × Json) :=
  [(some "shading_intensity", .ofNat 1), (some "contour_intensity", .ofNat 0)]

/-- The same style as an object, backwards and with a note. -/
def notedStyle : Json :=
  .obj [(some "contour_intensity", .ofNat 0), (some "note", .arr [.str none]),
    (some "shading_intensity", .ofNat 1)]

def membersWith (style : Json) : List (Option String × Json) :=
  [(some "auto_redraw", .bool false), (some "zoom_rate", .ofNat 1),
    (some "marker_radius_px", .ofNat 8), (some "default_scale", .ofNat 2), (some "style", style)]

/-- The same settings as an object, backwards. -/
def shuffled : Json :=
  .obj (membersWith notedStyle).reverse

def shuffledSettings : Settings Float where
  autoRedraw := false
  zoomRate := 1.0
  markerRadius := 8.0
  defaultScale := 2.0
  style := { (.initial : Style Float) with shading := 1.0, contour := 0.0 }

theorem eqvGen_listed_shuffled : Relation.EqvGen Respelled listed shuffled := by
  have hstyle {v v' : Json} (h : Json.Respelled Style.fieldNames v v') :
      Respelled (.obj (membersWith v)) (.obj (membersWith v')) :=
    .style h ((membersWith v).take 4) []
  have hnamed : Respelled listed (.obj (membersWith (.arr [.ofNat 1, .ofNat 0]))) :=
    .fields (.named (by decide))
  have hobject : Json.Respelled Style.fieldNames (.arr [.ofNat 1, .ofNat 0]) (.obj styleMembers) :=
    .named (by decide)
  have hbackwards : Json.Respelled Style.fieldNames (.obj styleMembers)
      (.obj styleMembers.reverse) :=
    .reordered styleMembers.reverse_perm.symm
  have hnoted : Json.Respelled Style.fieldNames (.obj styleMembers.reverse) notedStyle :=
    .extended (by decide) _ [_] [_]
  have hreversed : Respelled (.obj (membersWith notedStyle)) shuffled :=
    .fields (.reordered (membersWith notedStyle).reverse_perm.symm)
  calc Relation.EqvGen Respelled listed _ := .rel _ _ hnamed
    Relation.EqvGen Respelled _ _ := .rel _ _ (hstyle hobject)
    Relation.EqvGen Respelled _ _ := .rel _ _ (hstyle hbackwards)
    Relation.EqvGen Respelled _ _ := .rel _ _ (hstyle hnoted)
    Relation.EqvGen Respelled _ shuffled := .rel _ _ hreversed

theorem denotes_listed : Json.Denotes listed.render listed := by
  have hstyle : (Json.arr [.ofNat 1, .ofNat 0]).Proper := .arr (by simp [Json.proper_ofNat])
  exact Json.Proper.denotes (.arr (by simp [Json.proper_ofNat, Json.Proper.bool, hstyle]))

theorem denotes_shuffled : Json.Denotes shuffled.render shuffled := by
  have hnote : (Json.arr [.str none]).Proper := .arr (by simp [Json.Proper.str])
  have hstyle : notedStyle.Proper := .obj (by simp [Json.proper_ofNat, hnote])
  exact Json.Proper.denotes
    (.obj (by simp [membersWith, Json.proper_ofNat, Json.Proper.bool, hstyle]))

/-- Settings as an array, where the style has a key with a lone surrogate. -/
def garbled : Json :=
  .arr [.bool false, .ofNat 1, .ofNat 8, .ofNat 2, .obj [(none, .null)]]

theorem denotes_garbled : Json.Denotes garbled.render garbled := by
  have hstyle : (Json.obj [(none, .null)]).Proper := .obj (by simp [Json.Proper.null])
  exact Json.Proper.denotes (.arr (by simp [Json.proper_ofNat, Json.Proper.bool, hstyle]))

theorem ofText_depends_on_fields_shuffled :
    (ofText listed.render : Except (SettingsError Float) (Settings Float)) =
      ofText shuffled.render ∧
    (ofText garbled.render : Except (SettingsError Float) (Settings Float)) =
      .error .unreadable ∧
    (ofText " \n" : Except (SettingsError Float) (Settings Float)) = ofText "{}" ∧
    ofText shuffled.render = .ok shuffledSettings ∧
    Double.IsPositiveNormal shuffledSettings.zoomRate ∧
    ∃ session, Session.ofSettings (⟨[]⟩ : MemoryStore) shuffledSettings = .ok session := by
  obtain ⟨hspelling, hlone, hblank, husable⟩ := ofText_depends_on_fields
  have hread : ofJson? shuffled = some shuffledSettings := by
    decide +kernel
  have htext : ofText shuffled.render = .ok shuffledSettings := by
    rw [ofText_eq_of_denotes denotes_shuffled, hread, Option.elim_some]
    exact validate_eq_ok (by decide +kernel)
  obtain ⟨hzoom, -, -, hsession⟩ := husable _ _ htext
  exact ⟨hspelling _ _ _ _ denotes_listed denotes_shuffled eqvGen_listed_shuffled,
    hlone _ _ denotes_garbled (.fifth (.inserted .null [] []) _ _ _ _), hblank _ (by decide), htext,
    hzoom, hsession MemoryStore ⟨[]⟩⟩

/-- A member that is none of the fields is not always passed over: with a lone surrogate for its
key, in the settings or in the style, a text that could be read cannot be read any more. -/
theorem lone_surrogate_key_unreadable :
    Json.Denotes "{}" (.obj []) ∧
    Json.Denotes r#"{"\ud800":1}"# (.obj [(none, .ofNat 1)]) ∧
    (ofText "{}" : Except (SettingsError Float) (Settings Float)) = .ok .initial ∧
    (ofText r#"{"\ud800":1}"# : Except (SettingsError Float) (Settings Float)) =
      .error .unreadable ∧
    Json.Denotes r#"{"style":{}}"# (.obj [(some "style", .obj [])]) ∧
    Json.Denotes r#"{"style":{"\ud800":1}}"#
      (.obj [(some "style", .obj [(none, .ofNat 1)])]) ∧
    (ofText r#"{"style":{}}"# : Except (SettingsError Float) (Settings Float)) = .ok .initial ∧
    (ofText r#"{"style":{"\ud800":1}}"# : Except (SettingsError Float) (Settings Float)) =
      .error .unreadable := by
  have hproper : (Json.obj [(none, .ofNat 1)]).Proper := .obj (by simp [Json.proper_ofNat])
  have hkeyed : Json.Denotes r#"{"\ud800":1}"# _ := hproper.denotes_of_render (by decide +kernel)
  have hplain : Json.Denotes r#"{"style":{}}"# (.obj [(some "style", .obj [])]) :=
    Json.Proper.denotes_of_render (.obj (by simp [Json.Proper.obj])) (by decide +kernel)
  have hstyle : Json.Denotes r#"{"style":{"\ud800":1}}"#
      (.obj [(some "style", .obj [(none, .ofNat 1)])]) :=
    Json.Proper.denotes_of_render (.obj (by simp [hproper])) (by decide +kernel)
  refine ⟨denotes_empty, hkeyed, ?_, ?_, hplain, hstyle, ?_, ?_⟩
  · rw [ofText_eq_of_denotes denotes_empty]
    exact validate_eq_ok invalid?_initial
  · exact LoneKeyed.ofText_eq (.fields (.inserted _ [] [])) hkeyed
  · rw [ofText_eq_of_denotes hplain]
    exact validate_eq_ok invalid?_initial
  · exact LoneKeyed.ofText_eq (.style (.inserted _ [] []) [] []) hstyle

end Settings

end PlotPane
