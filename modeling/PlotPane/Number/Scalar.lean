import PlotPane.Number.Layout
import PlotPane.Number.Literal
import PlotPane.Number.Quantity
import PlotPane.Number.Rounding
import PlotPane.Text.Blank

/-!
# Scalars

The geometry, the variables and the session are written for any numbers that can be computed with,
compared, read and shown. Doubles are such numbers; so are rational numbers, in which the geometry
is exact.
-/

namespace PlotPane

class Scalar (α : Type) extends Add α, Sub α, Mul α, Div α, Neg α, LE α, LT α, OfScientific α where
  decLE (x y : α) : Decidable (x ≤ y)
  decLT (x y : α) : Decidable (x < y)
  isFinite : α → Bool
  /-- Finite, not zero, and held with full precision. -/
  isNormal : α → Bool
  exp : α → α
  exp2 : α → α
  quantity : α → Quantity
  /-- The decimals that reach the leading digit of a number, at most the given count. -/
  decimals : Nat → α → Nat
  ofLiteral : Literal → α
  /-- The text of a number in a field. -/
  text : α → String
  /-- The number inside JSON text, for those that JSON can hold. -/
  json? : α → Option String

attribute [reducible, instance] Scalar.decLE Scalar.decLT

namespace Scalar

variable {α : Type} [Scalar α]

/-- Whether a value is NaN: only NaN is not at most itself. -/
def isNaN (x : α) : Bool :=
  !decide (x ≤ x)

/-- The larger of two numbers, the first where they compare equal. -/
def larger (x y : α) : α :=
  if x < y then y else x

/-- The smaller of two numbers, the first where they compare equal. -/
def smaller (x y : α) : α :=
  if y < x then y else x

def isPositive (x : α) : Bool :=
  decide (0.0 < x)

/-- A length or a factor of any size. -/
def isExtent (x : α) : Bool :=
  isFinite x && isPositive x

/-- A measure that keeps full precision. -/
def isMeasure (x : α) : Bool :=
  isNormal x && isPositive x

/-- The number itself if it is finite, and zero otherwise. -/
def finiteOrZero (x : α) : α :=
  if isFinite x then x else 0.0

def ofInt (n : Int) : α :=
  ofLiteral ⟨decide (n < 0), n.natAbs, 0⟩

/-- The number typed into a field: blanks around it do not count, and what is no finite number reads
as zero. -/
def ofText (s : String) : α :=
  match Literal.read? (Text.trim s.toList) with
  | some literal => finiteOrZero (ofLiteral literal)
  | none => 0.0

/-- The text shown in a field. Adding zero makes a negative zero positive. -/
def fieldText (x : α) : String :=
  text (x + 0.0)

/-- The text with a fixed number of decimals. Adding zero makes a negative zero positive. -/
def fixedText (places : Nat) (x : α) : String :=
  (quantity (x + 0.0)).fixed places

/-- The largest count of pixels on one side of a surface. -/
def maxPixels : Nat := 0xFFFFFFFF

/-- The count of whole pixels nearest to a length, at least one. A half counts as a whole, and what
has no count is one pixel. -/
def pixels (x : α) : Nat :=
  match quantity x with
  | .finite false num den => min maxPixels (max 1 (roundDiv .away num den))
  | .infinite false => maxPixels
  | _ => 1

end Scalar

end PlotPane
