/-!
# Page boxes

A box is an axis-parallel rectangle in page space, with the origin at the lower left and `y`
growing upwards. Coordinates are of any type with the arithmetic that a cut needs, so that the
same definitions run on doubles and are reasoned about on rational numbers.
-/

namespace Folio

/-- A rectangle given by two corners. Nothing is assumed about their order. -/
structure Box (α : Type) where
  left : α
  bottom : α
  right : α
  top : α
  deriving DecidableEq, Repr, Inhabited

namespace Box

variable {α : Type}

/-- The coordinates in reading order: lower left corner, then upper right corner. -/
def toList (b : Box α) : List α := [b.left, b.bottom, b.right, b.top]

/-- The lower left corner. -/
def lowerLeft (b : Box α) : α × α := (b.left, b.bottom)

/-- The upper right corner. -/
def upperRight (b : Box α) : α × α := (b.right, b.top)

variable [Sub α]

/-- The horizontal extent. -/
def width (b : Box α) : α := b.right - b.left

/-- The vertical extent. -/
def height (b : Box α) : α := b.top - b.bottom

variable [LE α] [OfNat α 0]

/-- One of the extents is not positive. An extent that compares with nothing does not count. -/
def Degenerate (b : Box α) : Prop := b.width ≤ 0 ∨ b.height ≤ 0

instance [DecidableLE α] (b : Box α) : Decidable b.Degenerate :=
  inferInstanceAs (Decidable (_ ∨ _))

/-- Passes a box on unless it is degenerate. -/
def validate [DecidableLE α] (b : Box α) : Except (Box α) (Box α) :=
  if b.Degenerate then .error b else .ok b

/-- A box passes just if it is not degenerate. -/
theorem validate_eq_ok_iff [DecidableLE α] {b : Box α} :
    b.validate = .ok b ↔ ¬ b.Degenerate := by
  unfold validate
  split
  · next h => simp [h]
  · next h => simp [h]

end Box

end Folio
