import Folio.Geometry.Cut

/-!
# The halves of a box by their coordinates

`Parted` says which coordinates the halves of a box have that is cut at some place, and `Halved`
where that place is when a box is cut across its long side: half of the width to the right of the
left edge, or half of the height above the bottom edge. Neither of them looks at how a box is cut
(`halved_halves`, `Halved.eq_halves`), and they are about any arithmetic, exact or not.
-/

namespace Folio.Box

variable {α : Type} {b : Box α} {hs hs' : Half α × Half α}

/-- The halves of a box that is parted at a coordinate, in the order in which they become pages. -/
inductive Parted (b : Box α) : Orientation → α → Half α × Half α → Prop
  | vertically (x : α) : Parted b .landscape x
      (⟨.left, ⟨b.left, b.bottom, x, b.top⟩⟩, ⟨.right, ⟨x, b.bottom, b.right, b.top⟩⟩)
  | horizontally (y : α) : Parted b .portrait y
      (⟨.top, ⟨b.left, y, b.right, b.top⟩⟩, ⟨.bottom, ⟨b.left, b.bottom, b.right, y⟩⟩)

variable [Add α] [Sub α] [Div α] [OfNat α 2] [LE α]

/-- The halves of a box that is parted down the middle: vertically if it is at least as wide as it
is high, and horizontally if it is not. -/
inductive Halved (b : Box α) (hs : Half α × Half α) : Prop
  | wide (h : b.top - b.bottom ≤ b.right - b.left)
      (hparted : Parted b .landscape (b.left + (b.right - b.left) / 2) hs)
  | tall (h : ¬ b.top - b.bottom ≤ b.right - b.left)
      (hparted : Parted b .portrait (b.bottom + (b.top - b.bottom) / 2) hs)

variable [DecidableLE α]

/-- A box that is cut across its long side is halved. -/
theorem halved_halves (b : Box α) : b.Halved (b.halves b.orientation) := by
  unfold orientation
  split
  · next h => exact .wide h (.vertically _)
  · next h => exact .tall h (.horizontally _)

/-- Only the halves that a box is cut into across its long side halve it. -/
theorem Halved.eq_halves (h : b.Halved hs) : hs = b.halves b.orientation := by
  cases h with
  | wide h hparted =>
    have horientation : b.orientation = .landscape := if_pos h
    rw [horientation]
    cases hparted
    rfl
  | tall h hparted =>
    have horientation : b.orientation = .portrait := if_neg h
    rw [horientation]
    cases hparted
    rfl

/-- There is only one way to halve a box. -/
theorem Halved.unique (h : b.Halved hs) (h' : b.Halved hs') : hs = hs' :=
  h.eq_halves.trans h'.eq_halves.symm

instance [DecidableEq α] (b : Box α) (hs : Half α × Half α) : Decidable (b.Halved hs) :=
  decidable_of_iff (hs = b.halves b.orientation) ⟨fun h => h ▸ b.halved_halves, Halved.eq_halves⟩

end Folio.Box
