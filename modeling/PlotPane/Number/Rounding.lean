/-!
# Rounding a quotient

The natural number nearest to a quotient of naturals. Where the quotient lies halfway between two
of them, a `Tie` says which one is taken.
-/

namespace PlotPane

/-- The neighbour that an exact half goes to. -/
inductive Tie where
  | toEven
  | away
  deriving DecidableEq, Repr

/-- Whether a half above `lower` goes to `lower + 1`. -/
def Tie.goesUp : Tie → Nat → Bool
  | .toEven, lower => lower % 2 == 1
  | .away, _ => true

/-- The natural number nearest to `num / den`. -/
def roundDiv (tie : Tie) (num den : Nat) : Nat :=
  let lower := num / den
  let rest := num % den
  if den < 2 * rest || (2 * rest == den && tie.goesUp lower) then lower + 1 else lower

end PlotPane
