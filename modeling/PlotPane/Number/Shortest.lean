import PlotPane.Number.Binary

/-!
# Shortest digits

The decimal with the fewest digits among those that round to a given double, and of these the one
nearest to it. The candidates on a decimal grid are the two neighbours of the exact value: if any
point of the grid rounds to the double, one of them does.
-/

namespace PlotPane.Shortest

/-- The least `k` with `num / den < 10 ^ k`. -/
def decimalTop (num den : Nat) : Int :=
  if den ≤ num then Decimal.digitCount (num / den)
  else 1 - (Decimal.digitCount ((den - 1) / num) : Int)

/-- The neighbour of `b` on the grid of multiples of `10 ^ grid` that rounds to `b`. Of two, the
nearer.

In units of `2 ^ (b.exponent - 2)` the value is `4 * b.mantissa`, and the reals that round to it
reach two units up and two units down, or one unit down where `b` is narrow. The ends belong to the
range if the mantissa is even. -/
def onGrid (tie : Tie) (b : Binary) (grid : Int) : Option Nat :=
  let unit := powRatio 2 (b.exponent - 2)
  let mesh := powRatio 10 grid
  let scale := unit.1 * mesh.2
  let step := mesh.1 * unit.2
  let value := 4 * b.mantissa * scale
  let low := (4 * b.mantissa - if b.narrow then 1 else 2) * scale
  let high := (4 * b.mantissa + 2) * scale
  let inside (c : Nat) : Bool :=
    if b.mantissa % 2 == 0 then decide (low ≤ c * step) && decide (c * step ≤ high)
    else decide (low < c * step) && decide (c * step < high)
  let lower := value / step
  let nearest := roundDiv tie value step
  let other := if nearest = lower then lower + 1 else lower
  if inside nearest then some nearest else if inside other then some other else none

/-- All digits of the exact value. -/
def exact (b : Binary) : Decimal :=
  if 0 ≤ b.exponent then ⟨b.mantissa * Nat.pow 2 b.exponent.toNat, 0⟩
  else ⟨b.mantissa * Nat.pow 5 (-b.exponent).toNat, b.exponent⟩

/-- Tries one digit, then two, up to the seventeen that always tell doubles apart. -/
def digits (tie : Tie) (b : Binary) : Decimal :=
  let top := decimalTop b.ratio.1 b.ratio.2
  let hit := (List.range 17).findSome? fun (n : Nat) =>
    let grid := top - 1 - (n : Int)
    (onGrid tie b grid).map fun c => Decimal.mk c grid
  (hit.getD (exact b)).normalize

end PlotPane.Shortest
