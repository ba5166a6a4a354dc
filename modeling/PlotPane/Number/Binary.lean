import PlotPane.Number.Quantity
import PlotPane.Number.Rounding

/-!
# Binary64 words

A double is read off its 64 bits as `mantissa * 2 ^ exponent`, and the double nearest to a fraction
is put together as bits. All of it is exact arithmetic on natural numbers.
-/

namespace PlotPane

/-- A magnitude `mantissa * 2 ^ exponent`. The step down to the next smaller double is half the step
up exactly if `narrow` holds, which is so at the powers of two. -/
structure Binary where
  mantissa : Nat
  exponent : Int
  narrow : Bool
  deriving DecidableEq, Repr

namespace Binary

/-- The magnitude as a numerator over a denominator. -/
def ratio (b : Binary) : Nat × Nat :=
  (b.mantissa * (powRatio 2 b.exponent).1, (powRatio 2 b.exponent).2)

end Binary

namespace Double

/-- The weight of the sign bit. -/
def signWeight : Nat := 0x8000000000000000

/-- The weight of the exponent field, `2 ^ 52`, and so the size of the fraction field. -/
def exponentWeight : Nat := 0x10000000000000

/-- The exponent field of the infinities and of NaN. -/
def topExponent : Nat := 2047

def isNegative (x : Float) : Bool :=
  decide (signWeight ≤ x.toBits.toNat)

/-- The exponent field. -/
def biased (x : Float) : Nat :=
  x.toBits.toNat / exponentWeight % 2048

/-- The fraction field. -/
def fraction (x : Float) : Nat :=
  x.toBits.toNat % exponentWeight

/-- The magnitude of a finite double. -/
def magnitude (x : Float) : Binary where
  mantissa := if biased x = 0 then fraction x else fraction x + exponentWeight
  exponent := (max (biased x) 1 : Nat) - 1075
  narrow := fraction x == 0 && decide (1 < biased x)

def quantity (x : Float) : Quantity :=
  if biased x = topExponent then
    if fraction x = 0 then .infinite (isNegative x) else .nan
  else
    .finite (isNegative x) (magnitude x).ratio.1 (magnitude x).ratio.2

/-- The exponent of the largest power of two that does not exceed `num / den`. -/
def log2Ratio (num den : Nat) : Int :=
  let k : Int := (Nat.log2 num : Int) - Nat.log2 den
  if den * (powRatio 2 k).1 ≤ num * (powRatio 2 k).2 then k else k - 1

/-- The bits of the double nearest to `num / den`, a half going to the even mantissa. A mantissa
that rounds up to the next power of two carries into the exponent field. -/
def nearestBits (num den : Nat) : Nat :=
  if num = 0 then 0
  else
    let step := max (log2Ratio num den - 52) (-1074)
    let mantissa := roundDiv .toEven (num * (powRatio 2 step).2) (den * (powRatio 2 step).1)
    min ((step + 1074).toNat * exponentWeight + mantissa) (topExponent * exponentWeight)

/-- The double nearest to `digits * 10 ^ exponent`, negated if asked. Magnitudes from `10 ^ 310` are
infinite and those below `10 ^ (-330)` are zero, so no larger power of ten is ever formed. -/
def ofDecimal (negative : Bool) (d : Decimal) : Float :=
  let top : Int := (Decimal.digitCount d.digits : Int) + d.exponent
  let bits :=
    if d.digits = 0 || decide (top < -330) then 0
    else if 310 < top then topExponent * exponentWeight
    else nearestBits (d.digits * (powRatio 10 d.exponent).1) (powRatio 10 d.exponent).2
  Float.ofBits (UInt64.ofNat (if negative then signWeight + bits else bits))

end Double

end PlotPane
