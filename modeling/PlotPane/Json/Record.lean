import PlotPane.Json.Reader
import PlotPane.Number.Scalar

/-!
# Records in JSON

A record is written as an object, or as an array of its fields in their order. In an object unknown
members do not count, and a known one may stand only once. Either way what is left is a row: for
each field its value, if there is one.
-/

namespace PlotPane.Json

/-- How many members have a given name. -/
def countKey (name : String) (members : List (Option String × Json)) : Nat :=
  members.countP fun m => m.1 == some name

/-- The value of the first member with a given name. -/
def member? (name : String) (members : List (Option String × Json)) : Option Json :=
  (members.find? fun m => m.1 == some name).map Prod.snd

/-- The values of the fields with the given names. -/
def row? (names : List String) : Json → Option (List (Option Json))
  | .obj members =>
    if members.all (fun m => m.1.isSome) &&
        names.all (fun n => decide (countKey n members ≤ 1)) then
      some (names.map fun n => member? n members)
    else none
  | .arr items =>
    if items.length ≤ names.length then
      some (items.map some ++ List.replicate (names.length - items.length) none)
    else none
  | _ => none

/-- A field that has to be there. -/
def required {β : Type} (read : Json → Option β) (field : Option Json) : Option β :=
  field.bind read

/-- A field with a default. What is there has to be readable. -/
def optional {β : Type} (fallback : β) (read : Json → Option β) : Option Json → Option β
  | none => some fallback
  | some v => read v

def bool? : Json → Option Bool
  | .bool b => some b
  | _ => none

/-- A number that does not exceed every finite one. -/
def number? {α : Type} [Scalar α] : Json → Option α
  | .num literal =>
    (Literal.read? literal.toList).bind fun l =>
      let x : α := Scalar.ofLiteral l
      if Scalar.isFinite x then some x else none
  | _ => none

/-- A whole number below `2 ^ 32`, written with digits only. -/
def word? : Json → Option UInt32
  | .num literal =>
    if isDigits literal.toList && decide (Literal.digitsValue literal.toList < UInt32.size) then
      some (UInt32.ofNat (Literal.digitsValue literal.toList))
    else none
  | _ => none

/-- A number as a JSON value, null where JSON has no literal for it. -/
def ofScalar {α : Type} [Scalar α] (x : α) : Json :=
  match Scalar.json? x with
  | some literal => .num literal
  | none => .null

end PlotPane.Json
