import Folio.Geometry.Box

/-!
# The cut down the middle

A landscape box is cut vertically into a left and a right half, a portrait box horizontally into
a top and a bottom half; the halves come in that order. Both halves get the one cut coordinate
that was computed, so no gap and no overlap can arise from rounding.
-/

namespace Folio

/-- Which extent of a box is the long one. -/
inductive Orientation where
  | landscape
  | portrait
  deriving DecidableEq, Repr

/-- Where a half lies in the box that was cut. -/
inductive Side where
  | left
  | right
  | top
  | bottom
  deriving DecidableEq, Repr

/-- The word for an orientation. -/
def Orientation.text : Orientation → String
  | landscape => "landscape"
  | portrait => "portrait"

/-- Reads the word for an orientation. -/
def Orientation.ofText? : String → Option Orientation
  | "landscape" => some landscape
  | "portrait" => some portrait
  | _ => none

/-- The word for a side. -/
def Side.text : Side → String
  | left => "left"
  | right => "right"
  | top => "top"
  | bottom => "bottom"

/-- One half of a box. -/
structure Half (α : Type) where
  side : Side
  box : Box α
  deriving DecidableEq, Repr

namespace Box

variable {α : Type}

/-- A square box counts as landscape. -/
def orientation [Sub α] [LE α] [DecidableLE α] (b : Box α) : Orientation :=
  if b.height ≤ b.width then .landscape else .portrait

variable [Add α] [Sub α] [Div α] [OfNat α 2]

/-- The horizontal middle. -/
def middleX (b : Box α) : α := b.left + b.width / 2

/-- The vertical middle. -/
def middleY (b : Box α) : α := b.bottom + b.height / 2

/-- The two halves, in the order in which they become pages. -/
def halves (o : Orientation) (b : Box α) : Half α × Half α :=
  match o with
  | .landscape =>
    (⟨.left, { b with right := b.middleX }⟩, ⟨.right, { b with left := b.middleX }⟩)
  | .portrait =>
    (⟨.top, { b with bottom := b.middleY }⟩, ⟨.bottom, { b with top := b.middleY }⟩)

variable [LE α] [DecidableLE α] [OfNat α 0]

/-- Cuts a box the way an orientation asks for; a degenerate box is handed back as the failure. -/
def cut (o : Orientation) (b : Box α) : Except (Box α) (Half α × Half α) :=
  b.validate.map (halves o)

theorem cut_of_not_degenerate {b : Box α} (o : Orientation) (h : ¬ b.Degenerate) :
    b.cut o = .ok (b.halves o) := by
  rw [cut, validate, if_neg h]
  rfl

theorem cut_of_degenerate {b : Box α} (o : Orientation) (h : b.Degenerate) :
    b.cut o = .error b := by
  rw [cut, validate, if_pos h]
  rfl

/-- Cuts a box across its long side. -/
def split (b : Box α) : Except (Box α) (Half α × Half α) := b.cut b.orientation

end Box

end Folio
