import Folio.Geometry.Tiling
import Folio.Proofs.Geometry.Bisection

/-!
# Subdivisions

Repeated cutting, every time across the long side, tiles a box. `Tiling` is what one round keeps:
the boxes all have the same extents, no two overlap, and together they are the box. As they have
the same extents they are all cut the same way, so that the extents of the next round are the same
again (`Tiling.refine`). `exists_subdivision` draws from this what the boxes of any depth are like.
-/

namespace Folio.Box

variable {b c : Box ℚ} {bs : List (Box ℚ)} {e : Extents}

/-- The halves of every box of a list. -/
def shares (bs : List (Box ℚ)) : List (Box ℚ) := bs.flatMap fun b => b.pieces b.orientation

theorem mem_shares : c ∈ shares bs ↔ ∃ b ∈ bs, c ∈ b.pieces b.orientation := List.mem_flatMap

/-- A round succeeds unless it meets a degenerate box. -/
theorem refine_eq_shares (h : ∀ b ∈ bs, ¬ b.Degenerate) : refine bs = .ok (shares bs) := by
  induction bs with
  | nil => rfl
  | cons b bs ih =>
    obtain ⟨hb, hbs⟩ := List.forall_mem_cons.1 h
    rw [refine, split, cut_of_not_degenerate _ hb, ih hbs]
    rfl

/-- Boxes of the same extents that do not overlap and together are a box. -/
structure Tiling (b : Box ℚ) (e : Extents) (ts : List (Box ℚ)) : Prop where
  extents : ∀ t ∈ ts, t.extents = e
  disjoint : ts.Pairwise fun t u => Disjoint t.interior u.interior
  region : ⋃ t ∈ ts, t.region = b.region

namespace Tiling

variable {ts : List (Box ℚ)}

theorem single (b : Box ℚ) : Tiling b b.extents [b] where
  extents := by simp
  disjoint := List.pairwise_singleton _ _
  region := by simp

theorem positive (h : Tiling b e ts) (he : e.Positive) : ∀ t ∈ ts, t.extents.Positive := by
  intro t ht
  rw [h.extents t ht]
  exact he

/-- **One round** of a tiling is a tiling with the extents of the halves. -/
theorem shares (h : Tiling b e ts) (he : e.Positive) : Tiling b e.halve (shares ts) where
  extents c hc := by
    obtain ⟨t, ht, hc⟩ := mem_shares.1 hc
    rw [extents_of_mem_pieces hc, ← h.extents t ht]
    rfl
  disjoint := by
    refine List.pairwise_flatMap.2 ⟨fun t _ => ?_, ?_⟩
    · exact List.pairwise_pair.2 (disjoint_interior_halves t.orientation t)
    · refine h.disjoint.imp_of_mem fun ht hu hdisjoint c hc d hd => ?_
      exact hdisjoint.mono (interior_subset_of_mem_pieces (h.positive he _ ht) hc)
        (interior_subset_of_mem_pieces (h.positive he _ hu) hd)
  region := by
    rw [← h.region]
    ext z
    simp only [Set.mem_iUnion, exists_prop, mem_shares]
    constructor
    · rintro ⟨c, ⟨t, ht, hc⟩, hz⟩
      exact ⟨t, ht, (mem_region_iff_pieces (h.positive he t ht) _ z).2 ⟨c, hc, hz⟩⟩
    · rintro ⟨t, ht, hz⟩
      obtain ⟨c, hc, hz⟩ := (mem_region_iff_pieces (h.positive he t ht) t.orientation z).1 hz
      exact ⟨c, ⟨t, ht, hc⟩, hz⟩

theorem refine (h : Tiling b e ts) (he : e.Positive) :
    ∃ next, Box.refine ts = .ok next ∧ Tiling b e.halve next :=
  ⟨_, refine_eq_shares fun t ht => not_degenerate_iff.2 (h.positive he t ht), h.shares he⟩

/-- **Any number of rounds.** The induction is on the rounds that are left; the boxes that the next
one starts from are any tiling. -/
theorem refineTimes :
    ∀ (depth : ℕ) {e : Extents} {ts : List (Box ℚ)}, Tiling b e ts → e.Positive →
      ∃ next, Box.refineTimes depth ts = .ok next ∧ next.length = 2 ^ depth * ts.length ∧
        Tiling b (Extents.halve^[depth] e) next
  | 0, _, ts, h, _ => ⟨ts, rfl, by simp, h⟩
  | depth + 1, _, ts, h, he => by
    obtain ⟨next, hround, hnext⟩ := h.refine he
    obtain ⟨last, hrounds, hlength, hlast⟩ := hnext.refineTimes depth (he.cut _)
    refine ⟨last, ?_, ?_, hlast⟩
    · rw [Box.refineTimes, hround]
      exact hrounds
    · rw [hlength, length_refine hround, pow_succ, Nat.mul_assoc]

end Tiling

/-- **Repeated cutting tiles a box.** A box that passes is cut any number of times without failure.
The boxes that come out double in number with every round, pass, have the same extents and the same
share of the area. Their interiors are disjoint, and together they are the box. Their ratio of long
and short side is halved with every round, down to two. -/
theorem exists_subdivision {b : Box ℚ} (hb : b.validate = .ok b) (depth : ℕ) :
    ∃ ts, b.tiles depth = .ok ts ∧ ts.length = 2 ^ depth ∧
      (∀ t ∈ ts, t.validate = .ok t) ∧
      (∀ t ∈ ts, ∀ u ∈ ts, t.width = u.width ∧ t.height = u.height) ∧
      (∀ t ∈ ts, t.width * t.height = b.width * b.height / 2 ^ depth) ∧
      (ts.Pairwise fun t u => Disjoint t.interior u.interior) ∧
      ⋃ t ∈ ts, t.region = b.region ∧
      ∀ t ∈ ts, max t.width t.height / min t.width t.height ≤
        max 2 (max b.width b.height / min b.width b.height / 2 ^ depth) := by
  have he : b.extents.Positive := not_degenerate_iff.1 (validate_eq_ok_iff.1 hb)
  obtain ⟨ts, hrun, hlength, htiling⟩ := (Tiling.single b).refineTimes depth he
  refine ⟨ts, hrun, by simpa using hlength, fun t ht => ?_, fun t ht u hu => ?_, fun t ht => ?_,
    htiling.disjoint, htiling.region, fun t ht => ?_⟩
  · have hpositive := htiling.positive (he.iterate_halve depth) t ht
    exact validate_eq_ok_iff.2 (not_degenerate_iff.2 hpositive)
  · have hsame : t.extents = u.extents := (htiling.extents t ht).trans (htiling.extents u hu).symm
    exact ⟨congrArg Extents.width hsame, congrArg Extents.height hsame⟩
  · have harea := Extents.area_iterate_halve depth b.extents
    rwa [← htiling.extents t ht] at harea
  · have hratio := he.ratio_iterate_halve_le depth
    rwa [← htiling.extents t ht] at hratio

/-- A portrait page whose corner lies off the origin is cut into eight boxes. The first cut is
horizontal, and only the second brings a ratio of at most two. -/
theorem exists_subdivision_strip :
    let strip : Box ℚ := ⟨-10, 5, 90, 605⟩
    strip.validate = .ok strip ∧ ∃ ts, strip.tiles 3 = .ok ts ∧ ts.length = 8 ∧
      (∀ t ∈ ts, t.width * t.height = 7500) ∧ ⋃ t ∈ ts, t.region = strip.region := by
  intro strip
  have hpass : strip.validate = .ok strip := by
    rw [validate_eq_ok_iff, not_degenerate_iff]
    constructor <;> norm_num [strip, extents, width, height]
  obtain ⟨ts, hrun, hlength, -, -, harea, -, hregion, -⟩ := exists_subdivision hpass 3
  refine ⟨hpass, ts, hrun, hlength, fun t ht => ?_, hregion⟩
  rw [harea t ht]
  norm_num [strip, width, height]

end Folio.Box
