import PlotPane.Number.Layout
import PlotPane.Number.Scalar

/-!
# Doubles as scalars
-/

namespace PlotPane.Double

/-- The smallest normal double, `2 ^ (-1022)`. -/
def leastNormal : Float := Float.ofBits 0x0010000000000000

def isNormal (x : Float) : Bool :=
  x.isFinite && decide (leastNormal ≤ x.abs)

/-- The decimals that reach the leading digit of `x`, at most `most` of them. Zero has no leading
digit and gets all of them; what has no logarithm gets none. -/
def decimals (most : Nat) (x : Float) : Nat :=
  let lead := -(x.log10.floor)
  if lead ≤ 0.0 then 0
  else if lead ≤ most.toFloat then lead.toUInt64.toNat
  else if lead.isNaN then 0
  else most

instance : Scalar Float where
  decLE := Float.decLe
  decLT := Float.decLt
  isFinite := Float.isFinite
  isNormal := isNormal
  exp := Float.exp
  exp2 := Float.exp2
  quantity := quantity
  decimals := decimals
  ofLiteral l := ofDecimal l.negative l.magnitude
  text := Layout.field.render
  json? := Layout.json.finite?

theorem isFinite_zero : Scalar.isFinite (0.0 : Float) = true := rfl

end PlotPane.Double
