import PlotPane.Number.Shortest

/-!
# Laying digits out

How the digits of a number become a text. A `Layout` holds what a format decides on its own: which
magnitudes are written without an exponent, whether a whole number shows a fraction, whether a
positive exponent shows its sign, and where a tie between two shortest texts goes.
-/

namespace PlotPane

structure Layout where
  tie : Tie
  /-- The exponents of the leading digit, from the first up to but without the second, that are
  written positionally. All are where there is no range. -/
  positional : Option (Int × Int)
  wholeFraction : Bool
  exponentPlus : Bool
  deriving DecidableEq, Repr

namespace Layout

def decimalChars (n : Nat) : List Char :=
  Nat.toDigits 10 n

def zeros (n : Nat) : List Char :=
  List.replicate n '0'

/-- The digits with the point in its place and no exponent. -/
def plain (l : Layout) (d : Decimal) : List Char :=
  let ds := decimalChars d.digits
  if 0 ≤ d.exponent then
    ds ++ zeros d.exponent.toNat ++ (if l.wholeFraction then ['.', '0'] else [])
  else
    let places := (-d.exponent).toNat
    if places < ds.length then
      ds.take (ds.length - places) ++ '.' :: ds.drop (ds.length - places)
    else
      '0' :: '.' :: (zeros (places - ds.length) ++ ds)

/-- One digit, the others after a point, and the exponent of the first. -/
def scientific (l : Layout) (d : Decimal) (lead : Int) : List Char :=
  let ds := decimalChars d.digits
  let tail := if ds.length ≤ 1 then [] else '.' :: ds.drop 1
  let sign := if lead < 0 then ['-'] else if l.exponentPlus then ['+'] else []
  ds.take 1 ++ tail ++ 'e' :: (sign ++ decimalChars lead.natAbs)

def unsigned (l : Layout) (d : Decimal) : List Char :=
  let lead : Int := (Decimal.digitCount d.digits : Int) - 1 + d.exponent
  match l.positional with
  | none => l.plain d
  | some (low, high) => if low ≤ lead ∧ lead < high then l.plain d else l.scientific d lead

/-- The text of a finite double, and nothing for the others. -/
def finite? (l : Layout) (x : Float) : Option String :=
  if Double.biased x = Double.topExponent then none
  else
    let body := l.unsigned (Shortest.digits l.tie (Double.magnitude x))
    some (String.ofList (if Double.isNegative x then '-' :: body else body))

/-- The text of any double. -/
def render (l : Layout) (x : Float) : String :=
  match l.finite? x, Double.quantity x with
  | some s, _ => s
  | none, .infinite true => "-inf"
  | none, .infinite false => "inf"
  | none, _ => "NaN"

/-- Text for a numeric field: always positional, and a whole number has no fraction. -/
def field : Layout := ⟨.away, none, false, false⟩

/-- Numbers inside JSON text: positional from `1e-5` up to `1e16`, a whole number has a fraction,
and an exponent has a sign. -/
def json : Layout := ⟨.toEven, some (-5, 16), true, true⟩

end Layout

/-- The exact quantity with a fixed number of decimals, an exact half going to the even neighbour.
The sign stays where a negative quantity rounds to zero. -/
def Quantity.fixed (places : Nat) : Quantity → String
  | .nan => "NaN"
  | .infinite negative => if negative then "-inf" else "inf"
  | .finite negative num den =>
    let ds := Layout.decimalChars (roundDiv .toEven (num * Nat.pow 10 places) den)
    let padded := Layout.zeros (places + 1 - ds.length) ++ ds
    let whole := padded.take (padded.length - places)
    let tail := padded.drop (padded.length - places)
    let body := if places = 0 then whole else whole ++ '.' :: tail
    String.ofList (if negative then '-' :: body else body)

end PlotPane
