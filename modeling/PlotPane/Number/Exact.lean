import PlotPane.Number.Scalar

/-!
# Rational numbers as scalars

Every operation on rational numbers is exact, and every rational number is finite. The two
exponentials are not rational and have to be supplied.
-/

namespace PlotPane.Exact

/-- The exact value of a literal. -/
def ofLiteral (l : Literal) : Rat :=
  let scale := powRatio 10 l.magnitude.exponent
  let size := Rat.div (l.magnitude.digits * scale.1 : Nat) (scale.2 : Nat)
  if l.negative then Rat.neg size else size

/-- The least number of decimals, at most `most`, that reaches the leading digit of `x`. -/
def decimals (most : Nat) (x : Rat) : Nat :=
  if x.num < 0 then 0
  else ((List.range most).find? fun d => decide (x.den ≤ x.num.natAbs * Nat.pow 10 d)).getD most

/-- A whole number, or a numerator and a denominator. -/
def text (x : Rat) : String :=
  if x.den = 1 then toString x.num else toString x.num ++ "/" ++ toString x.den

/-- The scalars in which the geometry is exact. A rational number has a JSON literal if it is whole.
-/
@[reducible] def scalar (exp exp2 : Rat → Rat) : Scalar Rat where
  add := Rat.add
  sub := Rat.sub
  mul := Rat.mul
  div := Rat.div
  neg := Rat.neg
  le x y := Rat.blt y x = false
  lt x y := Rat.blt x y = true
  ofScientific := Rat.ofScientific
  decLE _ _ := inferInstance
  decLT _ _ := inferInstance
  isFinite _ := true
  isNormal x := x.num != 0
  exp := exp
  exp2 := exp2
  quantity x := .finite (decide (x.num < 0)) x.num.natAbs x.den
  decimals := decimals
  ofLiteral := ofLiteral
  text := text
  json? x := if x.den = 1 then some (toString x.num) else none

end PlotPane.Exact
