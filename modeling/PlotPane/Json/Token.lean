import PlotPane.Json.Value

/-!
# JSON tokens

A scanner reads a text one character at a time and hands out its tokens. Between two tokens it holds
nothing; inside a token it holds what it has seen of it.
-/

namespace PlotPane.Json

inductive Token where
  | comma
  | colon
  | openArray
  | closeArray
  | openObject
  | closeObject
  /-- A literal that is a whole value and no text. -/
  | atom (v : Json)
  | text (s : Option String)

/-- A piece of a string literal: a character, or a 16-bit unit that an escape gave by its number. -/
inductive Piece where
  | char (c : Char)
  | unit (n : Nat)

def isHighHalf (n : Nat) : Bool :=
  decide (0xD800 ≤ n) && decide (n < 0xDC00)

def isLowHalf (n : Nat) : Bool :=
  decide (0xDC00 ≤ n) && decide (n < 0xE000)

/-- Joins the halves of surrogate pairs. There is no text if a half stands alone. -/
def joinPieces : List Piece → Option (List Char)
  | [] => some []
  | .char c :: ps => (joinPieces ps).map (c :: ·)
  | .unit n :: ps =>
    if isHighHalf n then
      match ps with
      | .unit m :: rest =>
        if isLowHalf m then
          (joinPieces rest).map (Char.ofNat (0x10000 + (n - 0xD800) * 0x400 + (m - 0xDC00)) :: ·)
        else none
      | _ => none
    else if isLowHalf n then none
    else (joinPieces ps).map (Char.ofNat n :: ·)

/-- The text of the pieces that were seen, the last one first. -/
def textOfSeen (seen : List Piece) : Option String :=
  (joinPieces seen.reverse).map String.ofList

def isSpace (c : Char) : Bool :=
  c == ' ' || c == '\t' || c == '\n' || c == '\r'

/-- A token of a single character. -/
def punctuation? (c : Char) : Option Token :=
  if c = ',' then some .comma
  else if c = ':' then some .colon
  else if c = '[' then some .openArray
  else if c = ']' then some .closeArray
  else if c = '{' then some .openObject
  else if c = '}' then some .closeObject
  else none

/-- Whether a character neither separates tokens nor is one nor opens a string. -/
def isBare (c : Char) : Bool :=
  !isSpace c && (punctuation? c).isNone && c != '"'

def simpleEscape? (c : Char) : Option Char :=
  if c = '"' || c = '\\' || c = '/' then some c
  else if c = 'b' then some '\x08'
  else if c = 'f' then some '\x0c'
  else if c = 'n' then some '\n'
  else if c = 'r' then some '\r'
  else if c = 't' then some '\t'
  else none

def hexValue? (c : Char) : Option Nat :=
  if '0' ≤ c ∧ c ≤ '9' then some (c.toNat - '0'.toNat)
  else if 'a' ≤ c ∧ c ≤ 'f' then some (c.toNat - 'a'.toNat + 10)
  else if 'A' ≤ c ∧ c ≤ 'F' then some (c.toNat - 'A'.toNat + 10)
  else none

/-- A nonempty run of digits that is the whole of the text. -/
def isDigits (cs : List Char) : Bool :=
  !cs.isEmpty && cs.all Char.isDigit

/-- The whole part of a number has no needless zero in front. -/
def isWhole (cs : List Char) : Bool :=
  isDigits cs && (cs.length == 1 || cs.head? != some '0')

/-- An exponent, or nothing. -/
def isExponent : List Char → Bool
  | [] => true
  | c :: '+' :: ds => (c == 'e' || c == 'E') && isDigits ds
  | c :: '-' :: ds => (c == 'e' || c == 'E') && isDigits ds
  | c :: ds => (c == 'e' || c == 'E') && isDigits ds

/-- A fraction and an exponent, either of which may be missing. -/
def isTail : List Char → Bool
  | '.' :: cs => isDigits (cs.takeWhile Char.isDigit) && isExponent (cs.dropWhile Char.isDigit)
  | cs => isExponent cs

def isUnsignedNumber (cs : List Char) : Bool :=
  isWhole (cs.takeWhile Char.isDigit) && isTail (cs.dropWhile Char.isDigit)

def isNumber : List Char → Bool
  | '-' :: cs => isUnsignedNumber cs
  | cs => isUnsignedNumber cs

/-- The token of a run of bare characters. -/
def atom? (cs : List Char) : Option Token :=
  if cs = ['n', 'u', 'l', 'l'] then some (.atom .null)
  else if cs = ['t', 'r', 'u', 'e'] then some (.atom (.bool true))
  else if cs = ['f', 'a', 'l', 's', 'e'] then some (.atom (.bool false))
  else if isNumber cs then some (.atom (.num (String.ofList cs)))
  else none

/-- What the scanner is inside of. The last character or piece that it saw comes first. -/
inductive Scanner where
  | gap
  | bare (seen : List Char)
  | quoted (seen : List Piece)
  /-- After a backslash. -/
  | escape (seen : List Piece)
  /-- After `\u` and some digits with a value. -/
  | hex (seen : List Piece) (count value : Nat)

namespace Scanner

/-- A character between two tokens. -/
def enter (c : Char) : Scanner × List Token :=
  if isSpace c then (.gap, [])
  else if c = '"' then (.quoted [], [])
  else match punctuation? c with
    | some t => (.gap, [t])
    | none => (.bare [c], [])

/-- One character: the scanner after it, and the tokens that it completes. -/
def step : Scanner → Char → Option (Scanner × List Token)
  | .gap, c => some (enter c)
  | .bare seen, c =>
    if isBare c then some (.bare (c :: seen), [])
    else (atom? seen.reverse).map fun t => ((enter c).1, t :: (enter c).2)
  | .quoted seen, c =>
    if c = '"' then some (.gap, [.text (textOfSeen seen)])
    else if c = '\\' then some (.escape seen, [])
    else if c.toNat < 0x20 then none
    else some (.quoted (.char c :: seen), [])
  | .escape seen, c =>
    if c = 'u' then some (.hex seen 0 0, [])
    else (simpleEscape? c).map fun d => (.quoted (.char d :: seen), [])
  | .hex seen count value, c =>
    (hexValue? c).map fun d =>
      if count = 3 then (.quoted (.unit (16 * value + d) :: seen), [])
      else (.hex seen (count + 1) (16 * value + d), [])

/-- The end of the text: the tokens that it completes. -/
def finish : Scanner → Option (List Token)
  | .gap => some []
  | .bare seen => (atom? seen.reverse).map fun t => [t]
  | _ => none

end Scanner

end PlotPane.Json
