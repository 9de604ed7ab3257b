import Mathlib.Algebra.Order.Field.Basic
import Mathlib.Algebra.Order.Field.Rat
import Mathlib.Data.Set.Lattice
import Mathlib.Data.Set.Prod
import Mathlib.Order.CompletePartialOrder
import Mathlib.Tactic.Linarith
import Mathlib.Tactic.Ring
import Folio.Geometry.Cut

/-!
# A box and its halves

With exact arithmetic the two halves of a box have the same extents, whichever way the box is cut
(`extents_of_mem_pieces`); together they are the box (`region_union_halves`), and they share no
point but those of their common edge (`disjoint_interior_halves`).

`Extents` is what a box is without its place. Cutting the long side in two halves the area, and it
brings a box whose sides are of different length closer to a square, up to a ratio of two
(`Positive.ratio_halve_le`).
-/

namespace Folio

/-! ## Extents -/

/-- The two extents of a box. -/
structure Extents where
  width : ℚ
  height : ℚ

namespace Extents

variable {e : Extents}

/-- Both extents are those of a box that can be cut. -/
structure Positive (e : Extents) : Prop where
  width : 0 < e.width
  height : 0 < e.height

/-- The area of a box with these extents. -/
def area (e : Extents) : ℚ := e.width * e.height

/-- The long side in relation to the short one. -/
def ratio (e : Extents) : ℚ := max e.width e.height / min e.width e.height

/-- The extents of a half of a box that is cut the way an orientation asks for. -/
def cut : Orientation → Extents → Extents
  | .landscape, e => ⟨e.width / 2, e.height⟩
  | .portrait, e => ⟨e.width, e.height / 2⟩

/-- The extents of a half of a box that is cut across its long side. -/
def halve (e : Extents) : Extents :=
  e.cut (if e.height ≤ e.width then .landscape else .portrait)

theorem Positive.cut (h : e.Positive) (o : Orientation) : (e.cut o).Positive := by
  obtain ⟨hw, hh⟩ := h
  cases o with
  | landscape => exact ⟨half_pos hw, hh⟩
  | portrait => exact ⟨hw, half_pos hh⟩

/-- A half has half of the area. -/
theorem area_cut (o : Orientation) (e : Extents) : (e.cut o).area = e.area / 2 := by
  cases o with
  | landscape => exact div_mul_eq_mul_div ..
  | portrait => exact (mul_div_assoc ..).symm

/-- A box whose long side is cut has half of the ratio, or one of at most two: then the side that
was cut may have become the short one. -/
theorem ratio_half_le {long short : ℚ} (hshort : 0 < short) (h : short ≤ long) :
    max (long / 2) short / min (long / 2) short ≤ max 2 (long / short / 2) := by
  rcases le_total short (long / 2) with hle | hle
  · rw [max_eq_left hle, min_eq_right hle, div_right_comm]
    exact le_max_right _ _
  · rw [max_eq_right hle, min_eq_left hle]
    refine le_max_of_le_left ?_
    rw [div_le_iff₀ (half_pos (hshort.trans_le h))]
    linarith

/-- **Cutting the long side** halves the ratio down to two, and from then on keeps it there. -/
theorem Positive.ratio_halve_le (h : e.Positive) : e.halve.ratio ≤ max 2 (e.ratio / 2) := by
  unfold halve ratio
  split
  · next hlong =>
    rw [max_eq_left hlong, min_eq_right hlong]
    exact ratio_half_le h.height hlong
  · next hlong =>
    have hlong : e.width ≤ e.height := (lt_of_not_ge hlong).le
    rw [max_eq_right hlong, min_eq_left hlong, max_comm, min_comm]
    exact ratio_half_le h.width hlong

/-- The area after a number of cuts. -/
theorem area_iterate_halve (depth : ℕ) (e : Extents) :
    (halve^[depth] e).area = e.area / 2 ^ depth := by
  induction depth with
  | zero => simp
  | succ depth ih =>
    rw [Function.iterate_succ_apply', halve, area_cut, ih, pow_succ, div_div]

theorem Positive.iterate_halve (h : e.Positive) (depth : ℕ) : (halve^[depth] e).Positive := by
  induction depth with
  | zero => exact h
  | succ depth ih =>
    rw [Function.iterate_succ_apply']
    exact ih.cut _

/-- The ratio after a number of cuts. -/
theorem Positive.ratio_iterate_halve_le (h : e.Positive) (depth : ℕ) :
    (halve^[depth] e).ratio ≤ max 2 (e.ratio / 2 ^ depth) := by
  induction depth with
  | zero => simp
  | succ depth ih =>
    rw [Function.iterate_succ_apply']
    refine ((h.iterate_halve depth).ratio_halve_le).trans (max_le (le_max_left _ _) ?_)
    calc (halve^[depth] e).ratio / 2
        ≤ max 2 (e.ratio / 2 ^ depth) / 2 := by linarith
      _ = max (2 / 2) (e.ratio / 2 ^ depth / 2) := max_div_div_right (by norm_num) _ _ |>.symm
      _ ≤ max 2 (e.ratio / 2 ^ (depth + 1)) := by
        rw [pow_succ, div_div]
        exact max_le_max_right _ (by norm_num)

end Extents

/-! ## Places -/

namespace Box

variable {b c : Box ℚ}

/-- The extents of a box. -/
def extents (b : Box ℚ) : Extents := ⟨b.width, b.height⟩

/-- The points of a box, its edges included. -/
def region (b : Box ℚ) : Set (ℚ × ℚ) := Set.Icc b.left b.right ×ˢ Set.Icc b.bottom b.top

/-- The points of a box that lie on none of its edges. -/
def interior (b : Box ℚ) : Set (ℚ × ℚ) := Set.Ioo b.left b.right ×ˢ Set.Ioo b.bottom b.top

/-- The boxes of the two halves. -/
def pieces (o : Orientation) (b : Box ℚ) : List (Box ℚ) :=
  [(b.halves o).1.box, (b.halves o).2.box]

theorem not_degenerate_iff : ¬ b.Degenerate ↔ b.extents.Positive := by
  unfold Degenerate
  rw [not_or, not_le, not_le]
  exact ⟨fun h => ⟨h.1, h.2⟩, fun h => ⟨h.width, h.height⟩⟩

/-- The cut lies strictly inside of a box. -/
theorem middleX_mem (h : b.extents.Positive) : b.middleX ∈ Set.Ioo b.left b.right := by
  have hw : 0 < b.right - b.left := h.width
  constructor <;> unfold middleX width <;> linarith

theorem middleY_mem (h : b.extents.Positive) : b.middleY ∈ Set.Ioo b.bottom b.top := by
  have hh : 0 < b.top - b.bottom := h.height
  constructor <;> unfold middleY height <;> linarith

theorem mem_pieces {o : Orientation} :
    c ∈ b.pieces o ↔ c = (b.halves o).1.box ∨ c = (b.halves o).2.box := by
  simp [pieces]

/-- **Both halves have the same extents**, and so have those of any box with the same extents. -/
theorem extents_of_mem_pieces {o : Orientation} (hc : c ∈ b.pieces o) :
    c.extents = b.extents.cut o := by
  have hx : b.middleX - b.left = b.width / 2 ∧ b.right - b.middleX = b.width / 2 := by
    unfold middleX width
    constructor <;> ring
  have hy : b.middleY - b.bottom = b.height / 2 ∧ b.top - b.middleY = b.height / 2 := by
    unfold middleY height
    constructor <;> ring
  cases o <;> rcases mem_pieces.1 hc with rfl | rfl
  · exact congrArg (Extents.mk · b.height) hx.1
  · exact congrArg (Extents.mk · b.height) hx.2
  · exact congrArg (Extents.mk b.width) hy.2
  · exact congrArg (Extents.mk b.width) hy.1

/-- **The halves are the box.** -/
theorem region_union_halves (h : b.extents.Positive) (o : Orientation) :
    (b.halves o).1.box.region ∪ (b.halves o).2.box.region = b.region := by
  cases o with
  | landscape =>
    obtain ⟨h₁, h₂⟩ := middleX_mem h
    simp only [halves, region]
    rw [← Set.union_prod, Set.Icc_union_Icc_eq_Icc h₁.le h₂.le]
  | portrait =>
    obtain ⟨h₁, h₂⟩ := middleY_mem h
    simp only [halves, region]
    rw [← Set.prod_union, Set.union_comm, Set.Icc_union_Icc_eq_Icc h₁.le h₂.le]

/-- A point of a box lies in one of the halves. -/
theorem mem_region_iff_pieces (h : b.extents.Positive) (o : Orientation) (z : ℚ × ℚ) :
    z ∈ b.region ↔ ∃ c ∈ b.pieces o, z ∈ c.region := by
  rw [← region_union_halves h o, Set.mem_union]
  simp [pieces]

/-- A half does not stick out. -/
theorem interior_subset_of_mem_pieces (h : b.extents.Positive) {o : Orientation}
    (hc : c ∈ b.pieces o) : c.interior ⊆ b.interior := by
  obtain ⟨hx₁, hx₂⟩ := middleX_mem h
  obtain ⟨hy₁, hy₂⟩ := middleY_mem h
  cases o <;> rcases mem_pieces.1 hc with rfl | rfl
  · exact Set.prod_mono_left (Set.Ioo_subset_Ioo_right hx₂.le)
  · exact Set.prod_mono_left (Set.Ioo_subset_Ioo_left hx₁.le)
  · exact Set.prod_mono_right (Set.Ioo_subset_Ioo_left hy₁.le)
  · exact Set.prod_mono_right (Set.Ioo_subset_Ioo_right hy₂.le)

/-- **The halves share no point but those of the cut.** -/
theorem disjoint_interior_halves (o : Orientation) (b : Box ℚ) :
    Disjoint (b.halves o).1.box.interior (b.halves o).2.box.interior := by
  cases o with
  | landscape =>
    refine Set.disjoint_prod.2 (.inl ?_)
    exact Set.disjoint_left.2 fun x hx hx' => lt_asymm hx.2 hx'.1
  | portrait =>
    refine Set.disjoint_prod.2 (.inr ?_)
    exact Set.disjoint_left.2 fun y hy hy' => lt_asymm hy'.2 hy.1

end Box

end Folio
