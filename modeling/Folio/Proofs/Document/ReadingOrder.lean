import Folio.Proofs.Document.PageView
import Folio.Proofs.Geometry.Halving

/-!
# Splitting a booklet

A booklet that was scanned sheet by sheet is read again in the order of its pages once it is split
and repaginated from the last sheet: `split_repaginate_booklet`.
-/

namespace Folio

variable {ρ σ κ δ π φ : Type}

/-- A box that passes is not degenerate. -/
theorem Box.not_degenerate_of_validate {box : Box Float} (h : box.validate = .ok box) :
    ¬ box.Degenerate :=
  validate_eq_ok_iff.1 h

namespace PageView

variable {m : Medium ρ σ κ δ} (v : PageView m π φ)

/-- **Splitting and repagination undo a booklet.** For a source of sound pages and a draft without
pages, splitting and then repaginating from the last sheet succeed and leave twice as many pages as
the source has. The `k`-th page is a half of the `k`-th page of the source, the second one (right or
bottom) for odd `k` and the first one (left or top) for even `k`, and the `k`-th page from the end
is the other half. -/
theorem split_repaginate_booklet {source : σ} {pages : List (SourcePage κ)}
    (hpages : m.pages source = pages.map .ok)
    (hsound : ∀ p ∈ pages, p.box.validate = .ok p.box)
    (b : Bench δ) (hempty : v.pages b.draft = []) :
    ∃ moves b', (do let _ ← splitDocument m source; repaginate m .lastFirst : Work δ _).run b =
        (.ok moves, b') ∧
      (v.pages b'.draft).length = 2 * pages.length ∧
      ∀ k, 1 ≤ k → k ≤ pages.length → ∃ page first second,
        pages[k - 1]? = some page ∧ page.box.Halved (first, second) ∧
        (v.pages b'.draft)[k - 1]? =
          some (v.page page.content (if k % 2 = 1 then second.box else first.box)) ∧
        (v.pages b'.draft)[2 * pages.length + 1 - k - 1]? =
          some (v.page page.content (if k % 2 = 1 then first.box else second.box)) := by
  obtain ⟨b₁, hsplit, hp₁, -⟩ := v.run_splitDocument hpages
    (fun p hp => Box.not_degenerate_of_validate (hsound p hp)) b
  obtain ⟨b₂, hrepag, hp₂, -⟩ := v.run_repaginate .lastFirst b₁
  rw [hempty, List.nil_append] at hp₁
  have hfinal : v.pages b₂.draft =
      (pages.map v.leaf).mapIdx Pages.front ++ ((pages.map v.leaf).mapIdx Pages.back).reverse := by
    rw [hp₂, hp₁, Repagination.arrange, Repagination.moves, Pages.length_leaves,
      Pages.foldl_lastFirstMoves_leaves]
  refine ⟨_, b₂, by rw [Step.run_bind_ok hsplit, hrepag], ?_, ?_⟩
  · rw [hfinal]
    simp only [List.length_append, List.length_reverse, List.length_mapIdx, List.length_map]
    omega
  · intro k h₁ h₂
    have hk : k - 1 < pages.length := by omega
    have hpage : pages[k - 1]? = some pages[k - 1] := List.getElem?_eq_getElem hk
    obtain ⟨hfront, hback⟩ := Pages.getElem?_mapIdx_append_reverse Pages.front
      Pages.back (pages.map v.leaf) h₁ (by rwa [List.length_map])
    rw [← hfinal, List.getElem?_map, hpage] at hfront hback
    refine ⟨pages[k - 1], pages[k - 1].halves.1, pages[k - 1].halves.2, hpage,
      Box.halved_halves _, hfront.trans ?_, ?_⟩
    · rcases Nat.mod_two_eq_zero_or_one k with hodd | hodd
      · have : ¬ (k - 1) % 2 = 0 := by omega
        simp [Pages.front, leaf, hodd, this]
      · have : (k - 1) % 2 = 0 := by omega
        simp [Pages.front, leaf, hodd, this]
    · rw [List.length_map] at hback
      rw [show 2 * pages.length + 1 - k - 1 = 2 * pages.length - k by omega]
      refine hback.trans ?_
      rcases Nat.mod_two_eq_zero_or_one k with hodd | hodd
      · have : ¬ (k - 1) % 2 = 0 := by omega
        simp [Pages.back, leaf, hodd, this]
      · have : (k - 1) % 2 = 0 := by omega
        simp [Pages.back, leaf, hodd, this]

/-- A booklet of three sheets, of either orientation and not all at the origin, becomes six pages:
the right half of the first sheet, the top of the second one, the right half of the third one, and
then the other halves from the last sheet to the first. -/
theorem split_repaginate_booklet_three :
    let source : Rehearsal.Source :=
      ⟨"book", [⟨0, 0, 800, 600⟩, ⟨-10, 5, 410, 605⟩, ⟨1, 1, 2, 2⟩], none, false, false⟩
    (∀ p ∈ source.pages, p.box.validate = .ok p.box) ∧
      ∃ moves b', (do
          let _ ← splitDocument (Rehearsal.medium .smooth) source
          repaginate (Rehearsal.medium .smooth) .lastFirst : Work Rehearsal.Draft _).run
            ⟨.empty none false, []⟩ = (.ok moves, b') ∧
        b'.draft.pages =
          [⟨"book#1", some ⟨400, 0, 800, 600⟩⟩, ⟨"book#2", some ⟨-10, 305, 410, 605⟩⟩,
            ⟨"book#3", some ⟨1.5, 1, 2, 2⟩⟩, ⟨"book#3", some ⟨1, 1, 1.5, 2⟩⟩,
            ⟨"book#2", some ⟨-10, 5, 410, 305⟩⟩, ⟨"book#1", some ⟨0, 0, 400, 600⟩⟩] := by
  intro source
  have hpages : source.pages = [⟨"book#1", ⟨0, 0, 800, 600⟩⟩, ⟨"book#2", ⟨-10, 5, 410, 605⟩⟩,
      ⟨"book#3", ⟨1, 1, 2, 2⟩⟩] := by cbv
  have hsound : ∀ p ∈ source.pages, p.box.validate = .ok p.box := by
    simp only [hpages, List.mem_cons, List.not_mem_nil, or_false, forall_eq_or_imp, forall_eq]
    exact ⟨rfl, rfl, rfl⟩
  have hcut₁ : (⟨0, 0, 800, 600⟩ : Box Float).Halved
      (⟨.left, ⟨0, 0, 400, 600⟩⟩, ⟨.right, ⟨400, 0, 800, 600⟩⟩) := by decide +kernel
  have hcut₂ : (⟨-10, 5, 410, 605⟩ : Box Float).Halved
      (⟨.top, ⟨-10, 305, 410, 605⟩⟩, ⟨.bottom, ⟨-10, 5, 410, 305⟩⟩) := by decide +kernel
  have hcut₃ : (⟨1, 1, 2, 2⟩ : Box Float).Halved
      (⟨.left, ⟨1, 1, 1.5, 2⟩⟩, ⟨.right, ⟨1.5, 1, 2, 2⟩⟩) := by decide +kernel
  obtain ⟨moves, b', hrun, hlength, hhalves⟩ :=
    (Rehearsal.pageView .smooth).split_repaginate_booklet rfl hsound ⟨.empty none false, []⟩ rfl
  rw [hpages] at hlength hhalves
  change b'.draft.pages.length = 6 at hlength
  obtain ⟨_, _, _, hpage₁, hhalved₁, hfront₁, hback₁⟩ := hhalves 1 (by decide) (by decide)
  obtain ⟨_, _, _, hpage₂, hhalved₂, hfront₂, hback₂⟩ := hhalves 2 (by decide) (by decide)
  obtain ⟨_, _, _, hpage₃, hhalved₃, hfront₃, hback₃⟩ := hhalves 3 (by decide) (by decide)
  cases hpage₁
  cases hpage₂
  cases hpage₃
  obtain ⟨rfl, rfl⟩ := Prod.mk.inj (hhalved₁.unique hcut₁)
  obtain ⟨rfl, rfl⟩ := Prod.mk.inj (hhalved₂.unique hcut₂)
  obtain ⟨rfl, rfl⟩ := Prod.mk.inj (hhalved₃.unique hcut₃)
  refine ⟨hsound, moves, b', hrun, List.ext_getElem? fun i => ?_⟩
  match i with
  | 0 => exact hfront₁
  | 1 => exact hfront₂
  | 2 => exact hfront₃
  | 3 => exact hback₃
  | 4 => exact hback₂
  | 5 => exact hback₁
  | i + 6 =>
    rw [List.getElem?_eq_none (by omega)]
    rfl

end PageView

end Folio
