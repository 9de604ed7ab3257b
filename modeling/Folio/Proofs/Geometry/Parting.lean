import Folio.Proofs.Geometry.Bisection
import Folio.Proofs.Geometry.Halving

/-!
# Parting a box

A box may be cut either way, whichever of its sides is the long one. The halves then share the
coordinate of the cut, and have the others from the box (`Parted`). That much holds with any
arithmetic, exact or not. With exact arithmetic the halves part the box evenly (`Bisected`).
`cut_parts` is both.
-/

namespace Folio

/-- The coordinate of a point across a cut: a landscape cut is at a place from left to right, a
portrait cut at a place from bottom to top. -/
def Orientation.across : Orientation → ℚ × ℚ → ℚ
  | .landscape, z => z.1
  | .portrait, z => z.2

/-- The places strictly inside of a box that a cut can be at. -/
def Orientation.inside : Orientation → Box ℚ → Set ℚ
  | .landscape, b => Set.Ioo b.left b.right
  | .portrait, b => Set.Ioo b.bottom b.top

namespace Box

/-! ## Any arithmetic -/

section
variable {α : Type} {b : Box α} {o : Orientation} {hs : Half α × Half α}

variable [Add α] [Sub α] [Div α] [OfNat α 2]

/-- The coordinate of the cut down the middle. -/
def middle (o : Orientation) (b : Box α) : α :=
  match o with
  | .landscape => b.middleX
  | .portrait => b.middleY

theorem parted_halves (o : Orientation) (b : Box α) : Parted b o (b.middle o) (b.halves o) := by
  cases o with
  | landscape => exact .vertically _
  | portrait => exact .horizontally _

variable [LE α] [DecidableLE α] [OfNat α 0]

/-- A box is cut just if it passes, and then into its halves. -/
theorem cut_eq_ok_iff : b.cut o = .ok hs ↔ ¬ b.Degenerate ∧ hs = b.halves o := by
  by_cases h : b.Degenerate
  · simp [cut_of_degenerate o h, h]
  · simp [cut_of_not_degenerate o h, h, eq_comm]

/-- A box that does not pass is handed back, whichever way it was to be cut. -/
theorem cut_eq_error_iff {c : Box α} : b.cut o = .error c ↔ b.validate = .error c := by
  rw [cut]
  cases b.validate <;> simp [Except.map]

end

/-! ## Exact arithmetic -/

section
variable {b : Box ℚ}

theorem middle_mem_inside (h : b.extents.Positive) (o : Orientation) :
    b.middle o ∈ o.inside b := by
  cases o with
  | landscape => exact middleX_mem h
  | portrait => exact middleY_mem h

theorem validate_of_mem_pieces {o : Orientation} {c : Box ℚ} (h : b.extents.Positive)
    (hc : c ∈ b.pieces o) : c.validate = .ok c := by
  rw [validate_eq_ok_iff, not_degenerate_iff, extents_of_mem_pieces hc]
  exact h.cut o

/-- **The halves meet on the cut.** -/
theorem region_inter_halves (h : b.extents.Positive) (o : Orientation) :
    (b.halves o).1.box.region ∩ (b.halves o).2.box.region =
      {z ∈ b.region | o.across z = b.middle o} := by
  cases o with
  | landscape =>
    obtain ⟨h₁, h₂⟩ := middleX_mem h
    have hline : Set.Icc b.left b.middleX ∩ Set.Icc b.middleX b.right = {b.middleX} :=
      Set.Icc_inter_Icc_eq_singleton h₁.le h₂.le
    simp only [halves, region]
    rw [← Set.inter_prod, hline]
    ext z
    constructor
    · rintro ⟨hcut, hz⟩
      rw [Set.mem_singleton_iff] at hcut
      exact ⟨⟨hcut ▸ ⟨h₁.le, h₂.le⟩, hz⟩, hcut⟩
    · rintro ⟨⟨-, hz⟩, hcut⟩
      exact ⟨hcut, hz⟩
  | portrait =>
    obtain ⟨h₁, h₂⟩ := middleY_mem h
    have hline : Set.Icc b.middleY b.top ∩ Set.Icc b.bottom b.middleY = {b.middleY} := by
      rw [Set.inter_comm]
      exact Set.Icc_inter_Icc_eq_singleton h₁.le h₂.le
    simp only [halves, region]
    rw [← Set.prod_inter, hline]
    ext z
    constructor
    · rintro ⟨hz, hcut⟩
      rw [Set.mem_singleton_iff] at hcut
      exact ⟨⟨hz, hcut ▸ ⟨h₁.le, h₂.le⟩⟩, hcut⟩
    · rintro ⟨⟨hz, -⟩, hcut⟩
      exact ⟨hz, hcut⟩

/-- Two halves that part a box evenly at a coordinate. -/
structure Bisected (b : Box ℚ) (o : Orientation) (x : ℚ) (hs : Half ℚ × Half ℚ) : Prop where
  inside : x ∈ o.inside b
  first_passes : hs.1.box.validate = .ok hs.1.box
  second_passes : hs.2.box.validate = .ok hs.2.box
  width_eq : hs.1.box.width = hs.2.box.width
  height_eq : hs.1.box.height = hs.2.box.height
  cover : hs.1.box.region ∪ hs.2.box.region = b.region
  meet : hs.1.box.region ∩ hs.2.box.region = {z ∈ b.region | o.across z = x}

theorem bisected_halves (h : b.extents.Positive) (o : Orientation) :
    Bisected b o (b.middle o) (b.halves o) := by
  have hfirst : (b.halves o).1.box ∈ b.pieces o := mem_pieces.2 (.inl rfl)
  have hsecond : (b.halves o).2.box ∈ b.pieces o := mem_pieces.2 (.inr rfl)
  have hsame : (b.halves o).1.box.extents = (b.halves o).2.box.extents :=
    (extents_of_mem_pieces hfirst).trans (extents_of_mem_pieces hsecond).symm
  exact {
    inside := middle_mem_inside h o
    first_passes := validate_of_mem_pieces h hfirst
    second_passes := validate_of_mem_pieces h hsecond
    width_eq := congrArg Extents.width hsame
    height_eq := congrArg Extents.height hsame
    cover := region_union_halves h o
    meet := region_inter_halves h o }

end

/-- **A box can be cut either way.** Whatever the arithmetic, a cut fails just if the box does not
pass, and otherwise the halves share the coordinate of the cut and have all others from the box.
With exact arithmetic the cut lies strictly inside of the box, both halves pass and have the same
extents, together they are the box, and they meet only on the cut. -/
theorem cut_parts {α : Type} [Add α] [Sub α] [Div α] [OfNat α 2] [LE α] [DecidableLE α] [OfNat α 0]
    (o : Orientation) (b : Box α) (q : Box ℚ) :
    (∀ c, b.cut o = .error c ↔ b.validate = .error c) ∧
      (∀ hs, b.cut o = .ok hs → ∃ x, Parted b o x hs) ∧
      ∀ hs, q.cut o = .ok hs → ∃ x, Parted q o x hs ∧ Bisected q o x hs := by
  refine ⟨fun c => cut_eq_error_iff, fun hs h => ?_, fun hs h => ?_⟩
  · obtain ⟨-, rfl⟩ := cut_eq_ok_iff.1 h
    exact ⟨_, parted_halves o b⟩
  · obtain ⟨hpasses, rfl⟩ := cut_eq_ok_iff.1 h
    exact ⟨_, parted_halves o q, bisected_halves (not_degenerate_iff.1 hpasses) o⟩

/-- Two boxes cut along their long side: one on a grid, where the halves are not even, and one off
the origin, with exact arithmetic. -/
theorem cut_parts_strip :
    let grid : Box ℤ := ⟨-7, 2, -2, 90⟩
    let strip : Box ℚ := ⟨-10, 5, 90, 605⟩
    (∃ first second x, grid.cut .landscape = .ok (first, second) ∧
        Parted grid .landscape x (first, second) ∧ first.box.width ≠ second.box.width) ∧
      ∃ first second x, strip.cut .landscape = .ok (first, second) ∧
        Parted strip .landscape x (first, second) ∧ -10 < x ∧ x < 90 ∧
        first.box.region ∩ second.box.region = {z ∈ strip.region | z.1 = x} := by
  intro grid strip
  obtain ⟨-, hgrid, hstrip⟩ := cut_parts .landscape grid strip
  have hpasses : ¬ strip.Degenerate := by
    rw [not_degenerate_iff]
    constructor <;> norm_num [strip, extents, width, height]
  obtain ⟨x, hx⟩ := hgrid _ rfl
  obtain ⟨y, hy, hbisected⟩ := hstrip _ (cut_of_not_degenerate _ hpasses)
  exact ⟨⟨_, _, x, rfl, hx, by decide⟩, _, _, y, cut_of_not_degenerate _ hpasses, hy,
    hbisected.inside.1, hbisected.inside.2, hbisected.meet⟩

end Box

end Folio
