import PlotPane.Json.Reader
import PlotPane.Proofs.Numerals

/-!
# The grammar of JSON

The productions of the JSON standard as relations between texts and what they stand for: string
literals and their texts, and values with blanks between their tokens. The reader goes along with
every production, whatever containers are open and whatever follows, and so it reads each text of
the grammar as the value that it was written for. In particular no text is written for two values.
-/

namespace PlotPane.Json

/-! The productions -/

/-- Blanks between tokens, any number of them. -/
def Blanks (cs : List Char) : Prop :=
  ∀ c ∈ cs, c = ' ' ∨ c = '\t' ∨ c = '\n' ∨ c = '\r'

/-- The characters that have a short escape, each after the character that stands for it. -/
def shortEscapes : List (Char × Char) :=
  [('"', '"'), ('\\', '\\'), ('/', '/'), ('b', '\x08'), ('f', '\x0c'), ('n', '\n'), ('r', '\r'),
    ('t', '\t')]

/-- A character of a string literal, or an escape. -/
inductive Spelled : List Char → Piece → Prop
  | plain {c : Char} (hlow : 0x20 ≤ c.toNat) (hquote : c ≠ '"') (hslash : c ≠ '\\') :
      Spelled [c] (.char c)
  | short {c d : Char} (h : (c, d) ∈ shortEscapes) : Spelled ['\\', c] (.char d)
  | unit {a b c d : Char} {i j k l : ℕ} (ha : hexValue? a = some i) (hb : hexValue? b = some j)
      (hc : hexValue? c = some k) (hd : hexValue? d = some l) :
      Spelled ['\\', 'u', a, b, c, d] (.unit (16 * (16 * (16 * i + j) + k) + l))

inductive Spelling : List Char → List Piece → Prop
  | nil : Spelling [] []
  | cons {cs ds : List Char} {p : Piece} {ps : List Piece} (h : Spelled cs p)
      (hs : Spelling ds ps) : Spelling (cs ++ ds) (p :: ps)

/-- A string literal with its text, if it has one. -/
inductive Quotes : List Char → Option String → Prop
  | between {cs : List Char} {ps : List Piece} (h : Spelling cs ps) :
      Quotes ('"' :: (cs ++ ['"'])) ((joinPieces ps).map String.ofList)

/-- What a stretch of a text can stand for. All of this is one type so that an argument about the
grammar is one induction. -/
inductive Phrase where
  | value (v : Json)
  /-- A value with blanks around it. -/
  | padded (v : Json)
  /-- The items of an array, at least one of them. -/
  | items (vs : List Json)
  | member (k : Option String) (v : Json)
  /-- The members of an object, at least one of them. -/
  | members (ms : List (Option String × Json))

inductive Written : List Char → Phrase → Prop
  | null : Written ['n', 'u', 'l', 'l'] (.value .null)
  | isTrue : Written ['t', 'r', 'u', 'e'] (.value (.bool true))
  | isFalse : Written ['f', 'a', 'l', 's', 'e'] (.value (.bool false))
  | number {cs : List Char} {l : Literal} (h : Literal.Numeral cs l) :
      Written cs (.value (.num (String.ofList cs)))
  | string {cs : List Char} {s : Option String} (h : Quotes cs s) : Written cs (.value (.str s))
  | emptyArray {bs : List Char} (hbs : Blanks bs) :
      Written ('[' :: (bs ++ [']'])) (.value (.arr []))
  | array {cs : List Char} {vs : List Json} (h : Written cs (.items vs)) :
      Written ('[' :: (cs ++ [']'])) (.value (.arr vs))
  | emptyObject {bs : List Char} (hbs : Blanks bs) :
      Written ('{' :: (bs ++ ['}'])) (.value (.obj []))
  | object {cs : List Char} {ms : List (Option String × Json)} (h : Written cs (.members ms)) :
      Written ('{' :: (cs ++ ['}'])) (.value (.obj ms))
  | padded {as bs cs : List Char} {v : Json} (has : Blanks as) (h : Written cs (.value v))
      (hbs : Blanks bs) : Written (as ++ (cs ++ bs)) (.padded v)
  | item {cs : List Char} {v : Json} (h : Written cs (.padded v)) : Written cs (.items [v])
  | items {cs ds : List Char} {v : Json} {vs : List Json} (h : Written cs (.padded v))
      (hs : Written ds (.items vs)) : Written (cs ++ ',' :: ds) (.items (v :: vs))
  | member {as bs ks cs : List Char} {k : Option String} {v : Json} (has : Blanks as)
      (hk : Quotes ks k) (hbs : Blanks bs) (h : Written cs (.padded v)) :
      Written (as ++ (ks ++ (bs ++ ':' :: cs))) (.member k v)
  | lastMember {cs : List Char} {k : Option String} {v : Json} (h : Written cs (.member k v)) :
      Written cs (.members [(k, v)])
  | members {cs ds : List Char} {k : Option String} {v : Json} {ms : List (Option String × Json)}
      (h : Written cs (.member k v)) (hs : Written ds (.members ms)) :
      Written (cs ++ ',' :: ds) (.members ((k, v) :: ms))

/-- A grammatical text, and the value that it was written for. -/
def Denotes (s : String) (v : Json) : Prop :=
  Written s.toList (.padded v)

/-! Numbers -/

section

open Literal

theorem isDigits_of_digits {cs : List Char} (h : Digits cs) : isDigits cs = true := by
  simp only [isDigits, List.isEmpty_eq_false_iff.mpr h.ne_nil, List.all_eq_true.mpr h.isDigit,
    Bool.not_false, Bool.true_and]

theorem isWhole_of_whole {cs : List Char} (h : Whole cs) : isWhole cs = true := by
  rw [isWhole, isDigits_of_digits h.toDigits]
  cases h with
  | zero => rfl
  | digits hds hne => simp [hne]

theorem isExponent_of_exponent {es : List Char} {e : ℤ} (h : Exponent es e) :
    isExponent es = true := by
  have hmark {c : Char} (hc : c = 'e' ∨ c = 'E') : (c == 'e' || c == 'E') = true := by
    simpa using hc
  cases h with
  | absent => rfl
  | unsigned he hds =>
    obtain ⟨d, ds, rfl, hd⟩ := hds.head
    rw [Json.isExponent, hmark he, isDigits_of_digits hds]
    · rfl
    · rintro _ h
      cases h
      exact absurd hd (by decide)
    · rintro _ h
      cases h
      exact absurd hd (by decide)
  | plus he hds => rw [isExponent, hmark he, isDigits_of_digits hds, Bool.true_and]
  | minus he hds => rw [isExponent, hmark he, isDigits_of_digits hds, Bool.true_and]

theorem isTail_of_fraction {fs ds es : List Char} {e : ℤ} (hfs : Fraction fs ds)
    (hes : Exponent es e) : isTail (fs ++ es) = true := by
  cases hfs with
  | absent =>
    have hexp := isExponent_of_exponent hes
    cases hes with
    | absent => rfl
    | unsigned he _ => rcases he with rfl | rfl <;> exact hexp
    | plus he _ => rcases he with rfl | rfl <;> exact hexp
    | minus he _ => rcases he with rfl | rfl <;> exact hexp
  | digits hds =>
    rw [List.cons_append, isTail, (hds.span hes).1, (hds.span hes).2, isDigits_of_digits hds,
      isExponent_of_exponent hes, Bool.true_and]

theorem isUnsignedNumber_of_magnitude {cs : List Char} {d : Decimal} (h : Magnitude cs d) :
    isUnsignedNumber cs = true := by
  cases h with
  | parts hws hfs hes =>
    rw [isUnsignedNumber, (hws.span hfs hes).1, (hws.span hfs hes).2, isWhole_of_whole hws,
      isTail_of_fraction hfs hes, Bool.true_and]

theorem isNumber_of_numeral {cs : List Char} {l : Literal} (h : Numeral cs l) :
    isNumber cs = true := by
  cases h with
  | unsigned h =>
    have hnumber := isUnsignedNumber_of_magnitude h
    obtain ⟨c, rest, rfl, hc⟩ := h.head
    rwa [isNumber]
    rintro _ heq
    cases heq
    exact absurd hc (by decide)
  | minus h => exact isUnsignedNumber_of_magnitude h

theorem isBare_of_isMark {c : Char} (h : IsMark c) : isBare c = true := by
  rcases h with hdigit | hmark
  · have hne (x : Char) (hx : x.isDigit = false) : c ≠ x := by
      rintro rfl
      exact Bool.false_ne_true (hx.symm.trans hdigit)
    simp [isBare, isSpace, punctuation?, hne]
  · simp only [List.mem_cons, List.not_mem_nil, or_false] at hmark
    rcases hmark with rfl | rfl | rfl | rfl | rfl <;> decide

theorem atom?_of_numeral {cs : List Char} {l : Literal} (h : Numeral cs l) :
    atom? cs = some (.atom (.num (String.ofList cs))) := by
  have hhead : ∃ c rest, cs = c :: rest ∧ (c.isDigit = true ∨ c = '-') := by
    cases h with
    | unsigned h =>
      obtain ⟨c, rest, rfl, hc⟩ := h.head
      exact ⟨c, rest, rfl, .inl hc⟩
    | minus h => exact ⟨_, _, rfl, .inr rfl⟩
  have hnumber := isNumber_of_numeral h
  obtain ⟨c, rest, rfl, hc⟩ := hhead
  have hne (x : Char) (xs : List Char) (hx : x.isDigit = false ∧ x ≠ '-') :
      c :: rest ≠ x :: xs := by
    rintro heq
    cases heq
    rcases hc with hc | hc
    · exact Bool.false_ne_true (hx.1.symm.trans hc)
    · exact hx.2 hc
  rw [atom?, if_neg (hne _ _ (by decide)), if_neg (hne _ _ (by decide)),
    if_neg (hne _ _ (by decide)), if_pos hnumber]

end

/-! Tokens -/

/-- What may follow a bare token: the end of the text, or a character that is not bare. -/
def Stops (cs : List Char) : Prop :=
  ∀ c ∈ cs.head?, isBare c = false

theorem stops_nil : Stops [] := by
  rintro c ⟨⟩

theorem stops_cons {c : Char} (hc : isBare c = false) (cs : List Char) : Stops (c :: cs) := by
  rintro x ⟨⟩
  exact hc

theorem Blanks.stops {bs cs : List Char} (hbs : Blanks bs) (hcs : Stops cs) : Stops (bs ++ cs) := by
  cases bs with
  | nil => exact hcs
  | cons b bs =>
    apply stops_cons
    rcases hbs b List.mem_cons_self with rfl | rfl | rfl | rfl <;> rfl

/-- What a reader makes of the characters that follow. -/
def Reader.read (r : Reader) (cs : List Char) : Option Json :=
  (cs.foldlM Reader.step r).bind Reader.finish

/-- What becomes of a draft between two tokens. -/
def Draft.read (d : Draft) (cs : List Char) : Option Json :=
  Reader.read ⟨.gap, d⟩ cs

theorem Reader.read_cons (r : Reader) (c : Char) (cs : List Char) :
    r.read (c :: cs) = (r.step c).bind fun r' => r'.read cs := by
  rw [read, List.foldlM_cons]
  exact Option.bind_assoc _ _ _

theorem Reader.read_silent {scanner scanner' : Scanner} {c : Char}
    (h : scanner.step c = some (scanner', [])) (d : Draft) (cs : List Char) :
    Reader.read ⟨scanner, d⟩ (c :: cs) = Reader.read ⟨scanner', d⟩ cs := by
  rw [read_cons, step, h]
  rfl

theorem Reader.read_emits {scanner : Scanner} {c : Char} {t : Token}
    (h : scanner.step c = some (.gap, [t])) (d : Draft) (cs : List Char) :
    Reader.read ⟨scanner, d⟩ (c :: cs) = (d.step t).bind fun d' => d'.read cs := by
  rw [read_cons, step, h]
  cases hstep : d.step t with
  | none => simp [hstep]
  | some d' => simp [hstep, Draft.read]

namespace Draft

variable {d : Draft} {cs rest : List Char}

theorem read_blanks (h : Blanks cs) : d.read (cs ++ rest) = d.read rest := by
  induction cs with
  | nil => rfl
  | cons c cs ih =>
    obtain ⟨hc, hcs⟩ := List.forall_mem_cons.mp h
    have hstep : Scanner.gap.step c = some (.gap, []) := by
      rcases hc with rfl | rfl | rfl | rfl <;> rfl
    rw [List.cons_append, read, Reader.read_silent hstep]
    exact ih hcs

theorem read_token {c : Char} {t : Token} (h : Scanner.gap.step c = some (.gap, [t])) :
    d.read (c :: rest) = (d.step t).bind fun d' => d'.read rest :=
  Reader.read_emits h d rest

/-- A run of bare characters ends before what is not bare, and with the text. -/
theorem read_bare {seen : List Char} (hbare : ∀ c ∈ cs, isBare c = true)
    (hrest : Stops rest) :
    Reader.read ⟨.bare seen, d⟩ (cs ++ rest) =
      (atom? (seen.reverse ++ cs)).bind fun t => (d.step t).bind fun d' => d'.read rest := by
  induction cs generalizing seen with
  | nil =>
    rw [List.append_nil, List.nil_append]
    cases rest with
    | nil =>
      cases hatom : atom? seen.reverse with
      | none => simp [Reader.read, Reader.finish, Scanner.finish, hatom]
      | some t => simp [Reader.read, Reader.finish, Scanner.finish, hatom, read]
    | cons c rest =>
      have hc : ¬isBare c = true := Bool.eq_false_iff.mp (hrest c rfl)
      cases hatom : atom? seen.reverse with
      | none => simp [Reader.read_cons, Reader.step, Scanner.step, hc, hatom]
      | some t =>
        simp [Reader.read_cons, Reader.step, Scanner.step, hc, hatom, read, Option.bind_assoc]
  | cons c cs ih =>
    obtain ⟨hc, hcs⟩ := List.forall_mem_cons.mp hbare
    have hstep : Scanner.step (.bare seen) c = some (.bare (c :: seen), []) := if_pos hc
    rw [List.cons_append, Reader.read_silent hstep, ih hcs, List.reverse_cons, List.append_assoc]
    rfl

theorem read_atom (hne : cs ≠ []) (hbare : ∀ c ∈ cs, isBare c = true)
    (hrest : Stops rest) {t : Token} (ht : atom? cs = some t) :
    d.read (cs ++ rest) = (d.step t).bind fun d' => d'.read rest := by
  obtain ⟨c, cs, rfl⟩ := List.exists_cons_of_ne_nil hne
  obtain ⟨hc, hcs⟩ := List.forall_mem_cons.mp hbare
  have hstep : Scanner.gap.step c = some (.bare [c], []) := by
    simp only [isBare, Bool.and_eq_true, Bool.not_eq_true', bne_iff_ne, Option.isNone_iff_eq_none]
      at hc
    simp [Scanner.step, Scanner.enter, hc]
  rw [List.cons_append, read, Reader.read_silent hstep, read_bare hcs hrest]
  change (atom? (c :: cs)).bind _ = _
  rw [ht, Option.bind_some]

/-- Inside a string literal every character and every escape adds a piece. -/
theorem read_spelled {p : Piece} (h : Spelled cs p) (seen : List Piece) :
    Reader.read ⟨.quoted seen, d⟩ (cs ++ rest) = Reader.read ⟨.quoted (p :: seen), d⟩ rest := by
  cases h with
  | plain hlow hquote hslash =>
    apply Reader.read_silent
    rw [Scanner.step, if_neg hquote, if_neg hslash, if_neg (Nat.not_lt.mpr hlow)]
  | @short c p h =>
    have hback : Scanner.step (.quoted seen) '\\' = some (.escape seen, []) := rfl
    have hstep : Scanner.step (.escape seen) c = some (.quoted (.char p :: seen), []) := by
      simp only [shortEscapes, List.mem_cons, Prod.mk.injEq, List.not_mem_nil, or_false] at h
      rcases h with ⟨rfl, rfl⟩ | ⟨rfl, rfl⟩ | ⟨rfl, rfl⟩ | ⟨rfl, rfl⟩ | ⟨rfl, rfl⟩ | ⟨rfl, rfl⟩ |
        ⟨rfl, rfl⟩ | ⟨rfl, rfl⟩ <;> rfl
    exact (Reader.read_silent hback d _).trans (Reader.read_silent hstep d rest)
  | unit ha hb hc hd =>
    have hback : Scanner.step (.quoted seen) '\\' = some (.escape seen, []) := rfl
    have hunit : Scanner.step (.escape seen) 'u' = some (.hex seen 0 0, []) := rfl
    have hdigit {x : Char} {n : ℕ} (hx : hexValue? x = some n) (count value : ℕ) :
        Scanner.step (.hex seen count value) x =
          some (if count = 3 then (.quoted (.unit (16 * value + n) :: seen), [])
            else (.hex seen (count + 1) (16 * value + n), [])) := by
      rw [Scanner.step, hx, Option.map_some]
    simp only [List.cons_append, List.nil_append]
    rw [Reader.read_silent hback, Reader.read_silent hunit, Reader.read_silent (hdigit ha 0 0),
      Reader.read_silent (hdigit hb 1 _), Reader.read_silent (hdigit hc 2 _),
      Reader.read_silent (hdigit hd 3 _), Nat.mul_zero, Nat.zero_add]

theorem read_spelling {ps : List Piece} (h : Spelling cs ps) (seen : List Piece) :
    Reader.read ⟨.quoted seen, d⟩ (cs ++ rest) =
      Reader.read ⟨.quoted (ps.reverse ++ seen), d⟩ rest := by
  induction h generalizing seen with
  | nil => rfl
  | cons h _ ih =>
    rw [List.append_assoc, read_spelled h, ih, List.reverse_cons, List.append_assoc]
    rfl

theorem read_quotes {s : Option String} (h : Quotes cs s) :
    d.read (cs ++ rest) = (d.step (.text s)).bind fun d' => d'.read rest := by
  cases h with
  | @between cs ps h =>
    have hopen : Scanner.gap.step '"' = some (.quoted [], []) := rfl
    have hclose : Scanner.step (.quoted (ps.reverse ++ [])) '"' =
        some (.gap, [.text ((joinPieces ps).map String.ofList)]) := by
      rw [List.append_nil, Scanner.step, if_pos rfl, textOfSeen, List.reverse_reverse]
    rw [List.cons_append, List.append_assoc, read, Reader.read_silent hopen, read_spelling h,
      List.singleton_append, Reader.read_emits hclose]

end Draft

/-! Values -/

/-- The reader goes along with a phrase: it comes out where the phrase is complete, whatever is open
around it and whatever follows. -/
def Phrase.Follows (cs : List Char) : Phrase → Prop
  | .value v | .padded v => ∀ opened stack rest, Stops rest →
      (Draft.value opened stack).read (cs ++ rest) = (Draft.complete v stack).read rest
  | .items vs => ∀ opened acc stack rest,
      (Draft.value opened (.array acc :: stack)).read (cs ++ ']' :: rest) =
        (Draft.complete (.arr (acc.reverse ++ vs)) stack).read rest
  | .member k v => ∀ opened acc stack rest, Stops rest →
      (Draft.key opened acc stack).read (cs ++ rest) =
        (Draft.complete v (.object acc k :: stack)).read rest
  | .members ms => ∀ opened acc stack rest,
      (Draft.key opened acc stack).read (cs ++ '}' :: rest) =
        (Draft.complete (.obj (acc.reverse ++ ms)) stack).read rest

theorem follows_literal {cs : List Char} {v : Json} (hne : cs ≠ [])
    (hbare : ∀ c ∈ cs, isBare c = true) (hatom : atom? cs = some (.atom v)) :
    (Phrase.value v).Follows cs := by
  intro opened stack rest hrest
  exact Draft.read_atom hne hbare hrest hatom

theorem Written.follows {cs : List Char} {phrase : Phrase} (h : Written cs phrase) :
    phrase.Follows cs := by
  induction h with
  | null => exact follows_literal (List.cons_ne_nil _ _) (List.all_eq_true.mp rfl) rfl
  | isTrue => exact follows_literal (List.cons_ne_nil _ _) (List.all_eq_true.mp rfl) rfl
  | isFalse => exact follows_literal (List.cons_ne_nil _ _) (List.all_eq_true.mp rfl) rfl
  | number h =>
    have hbare := fun c hc => isBare_of_isMark (h.isMark c hc)
    exact follows_literal h.ne_nil hbare (atom?_of_numeral h)
  | string h =>
    intro opened stack rest _
    exact Draft.read_quotes h
  | emptyArray hbs =>
    intro opened stack rest _
    rw [List.cons_append, List.append_assoc, Draft.read_token rfl]
    exact (Draft.read_blanks hbs).trans (Draft.read_token (c := ']') rfl)
  | array _ ih =>
    intro opened stack rest _
    rw [List.cons_append, List.append_assoc, Draft.read_token rfl]
    exact ih true [] stack rest
  | emptyObject hbs =>
    intro opened stack rest _
    rw [List.cons_append, List.append_assoc, Draft.read_token rfl]
    exact (Draft.read_blanks hbs).trans (Draft.read_token (c := '}') rfl)
  | object _ ih =>
    intro opened stack rest _
    rw [List.cons_append, List.append_assoc, Draft.read_token rfl]
    exact ih true [] stack rest
  | padded has _ hbs ih =>
    intro opened stack rest hrest
    rw [List.append_assoc, List.append_assoc, Draft.read_blanks has,
      ih opened stack _ (hbs.stops hrest), Draft.read_blanks hbs]
  | item _ ih =>
    intro opened acc stack rest
    rw [ih opened _ _ (stops_cons rfl rest), Draft.read_token rfl]
    exact congrArg (fun vs => (Draft.complete (.arr vs) stack).read rest) List.reverse_cons
  | @items _ _ v vs _ _ ih ihs =>
    intro opened acc stack rest
    rw [List.append_assoc, List.cons_append, ih opened _ _ (stops_cons rfl _), Draft.read_token rfl]
    have hrest := ihs false (v :: acc) stack rest
    rw [List.reverse_cons, List.append_assoc] at hrest
    exact hrest
  | @member _ _ _ _ k v has hk hbs _ ih =>
    intro opened acc stack rest hrest
    simp only [List.append_assoc, List.cons_append]
    rw [Draft.read_blanks has, Draft.read_quotes hk]
    change (Draft.colon acc k stack).read _ = _
    rw [Draft.read_blanks hbs, Draft.read_token rfl]
    exact ih false (.object acc k :: stack) rest hrest
  | lastMember _ ih =>
    intro opened acc stack rest
    rw [ih opened _ _ _ (stops_cons rfl rest), Draft.read_token rfl]
    exact congrArg (fun ms => (Draft.complete (.obj ms) stack).read rest) List.reverse_cons
  | @members _ _ k v ms _ _ ih ihs =>
    intro opened acc stack rest
    rw [List.append_assoc, List.cons_append, ih opened _ _ _ (stops_cons rfl _),
      Draft.read_token rfl]
    have hrest := ihs false ((k, v) :: acc) stack rest
    rw [List.reverse_cons, List.append_assoc] at hrest
    exact hrest

/-- A text of the grammar is read as the value that it was written for. -/
theorem Denotes.read? {s : String} {v : Json} (h : Denotes s v) : read? s = some v := by
  have hread := h.follows false [] [] stops_nil
  rw [List.append_nil] at hread
  exact hread

theorem Denotes.unique {s : String} {v w : Json} (hv : Denotes s v) (hw : Denotes s w) : v = w :=
  Option.some.inj (hv.read?.symm.trans hw.read?)

end PlotPane.Json
