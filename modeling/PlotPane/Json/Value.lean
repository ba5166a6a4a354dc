/-!
# JSON values

A JSON value and its text without blanks. A number is kept as its literal, and the members of an
object in their order with all repetitions.
-/

namespace PlotPane

/-- The text of a string is absent where its literal holds half of a surrogate pair: the grammar
admits it, and it stands for no text. -/
inductive Json where
  | null
  | bool (b : Bool)
  | num (literal : String)
  | str (text : Option String)
  | arr (items : List Json)
  | obj (members : List (Option String × Json))

namespace Json

/-- A character inside a string literal. The quote, the backslash and the control characters are
escaped, with a short form where there is one. -/
def escaped (c : Char) : List Char :=
  if c = '"' then ['\\', '"']
  else if c = '\\' then ['\\', '\\']
  else if c = '\x08' then ['\\', 'b']
  else if c = '\x0c' then ['\\', 'f']
  else if c = '\n' then ['\\', 'n']
  else if c = '\r' then ['\\', 'r']
  else if c = '\t' then ['\\', 't']
  else if c.toNat < 0x20 then
    ['\\', 'u', '0', '0', Nat.digitChar (c.toNat / 16), Nat.digitChar (c.toNat % 16)]
  else [c]

/-- A string literal. -/
def quoted : Option String → List Char
  | some s => '"' :: (s.toList.flatMap escaped ++ ['"'])
  | none => ['"', '\\', 'u', 'd', '8', '0', '0', '"']

mutual

def chars : Json → List Char
  | .null => ['n', 'u', 'l', 'l']
  | .bool true => ['t', 'r', 'u', 'e']
  | .bool false => ['f', 'a', 'l', 's', 'e']
  | .num literal => literal.toList
  | .str text => quoted text
  | .arr items => '[' :: (itemChars items ++ [']'])
  | .obj members => '{' :: (memberChars members ++ ['}'])

def itemChars : List Json → List Char
  | [] => []
  | [v] => chars v
  | v :: w :: vs => chars v ++ ',' :: itemChars (w :: vs)

def memberChars : List (Option String × Json) → List Char
  | [] => []
  | [(k, v)] => quoted k ++ ':' :: chars v
  | (k, v) :: m :: ms => quoted k ++ ':' :: (chars v ++ ',' :: memberChars (m :: ms))

end

/-- The text of a value. -/
def render (v : Json) : String :=
  String.ofList v.chars

def text (s : String) : Json :=
  .str (some s)

def ofNat (n : Nat) : Json :=
  .num (toString n)

/-- An object with members of given names. -/
def record (members : List (String × Json)) : Json :=
  .obj (members.map fun m => (some m.1, m.2))

end Json

end PlotPane
