import Folio.Proofs.Document.PageView
import Folio.Proofs.Geometry.Halving

/-!
# What splitting adds to a draft

`splitDocument` goes through the pages of a source in order and stops at the first whose box is
degenerate. `PageView.splitDocument_appends` says what a draft is then: its old pages, followed by
the two halves of every page that was reached (`PageView.Halves`), whether or not the splitting came
to an end.
-/

namespace Folio

variable {ρ σ κ δ π φ : Type}

/-- A page with a degenerate box adds nothing. -/
theorem run_splitPage_of_degenerate (m : Medium ρ σ κ δ) {p : SourcePage κ}
    (hp : p.box.Degenerate) (b : Bench δ) :
    (splitPage m p).run b = (.error (.degenerateBox p.box), b) := by
  have hsplit : p.box.split.mapError Failure.degenerateBox =
      .error (.degenerateBox p.box) := by
    rw [Box.split, Box.cut_of_degenerate _ hp]
    rfl
  unfold splitPage
  rw [hsplit, Step.run_bind_error (Work.run_ofExcept _ b)]

/-- Some pages are sound, or there is a first one that is degenerate. -/
theorem SourcePage.sound_or_first_degenerate (pages : List (SourcePage κ)) :
    (∀ p ∈ pages, ¬ p.box.Degenerate) ∨
      ∃ front bad back, pages = front ++ bad :: back ∧ bad.box.Degenerate ∧
        ∀ p ∈ front, ¬ p.box.Degenerate := by
  rcases all_or_first (fun p : SourcePage κ => ¬ p.box.Degenerate) pages with
    hsound | ⟨front, bad, back, hpages, hfront, hbad⟩
  · exact .inl hsound
  · exact .inr ⟨front, bad, back, hpages, Decidable.not_not.1 hbad, hfront⟩

namespace PageView

variable {m : Medium ρ σ κ δ} (v : PageView m π φ)

/-- Pages that are the halves of some pages of a source: page `k` of the source gives the pages
`2 * k - 1` and `2 * k`, which have its content and are cropped to the first and to the second half
of its box. -/
structure Halves (pages : List (SourcePage κ)) (new : List π) : Prop where
  length : new.length = 2 * pages.length
  split : ∀ {k page}, 1 ≤ k → pages[k - 1]? = some page → ∃ first second,
    page.box.Halved (first, second) ∧
      new[2 * k - 1 - 1]? = some (v.page page.content (some first.box)) ∧
      new[2 * k - 1]? = some (v.page page.content (some second.box))

/-- The leaves of pages are their halves. -/
theorem halves_leaves (pages : List (SourcePage κ)) :
    v.Halves pages (Pages.leaves (pages.map v.leaf)) where
  length := by rw [Pages.length_leaves, List.length_map]
  split {k page} hk hpage := by
    have hfirst : (2 * k - 1 - 1) / 2 = k - 1 ∧ (2 * k - 1 - 1) % 2 = 0 := by omega
    have hsecond : (2 * k - 1) / 2 = k - 1 ∧ ¬ (2 * k - 1) % 2 = 0 := by omega
    refine ⟨page.halves.1, page.halves.2, Box.halved_halves _, ?_, ?_⟩
    · rw [Pages.getElem?_leaves, hfirst.1, List.getElem?_map, hpage]
      simp [leaf, hfirst.2]
    · rw [Pages.getElem?_leaves, hsecond.1, List.getElem?_map, hpage]
      simp [leaf, hsecond.2]

/-- Nothing else is. -/
theorem Halves.eq_leaves {v : PageView m π φ} {pages : List (SourcePage κ)} {new : List π}
    (h : v.Halves pages new) : new = Pages.leaves (pages.map v.leaf) := by
  have hleaves := v.halves_leaves pages
  refine List.ext_getElem? fun i => ?_
  cases hpage : pages[i / 2]? with
  | none =>
    rw [List.getElem?_eq_none_iff] at hpage
    rw [List.getElem?_eq_none (by rw [h.length]; omega),
      List.getElem?_eq_none (by rw [hleaves.length]; omega)]
  | some page =>
    have hk : pages[i / 2 + 1 - 1]? = some page := hpage
    obtain ⟨first, second, hhalved, hfirst, hsecond⟩ := h.split (Nat.le_add_left 1 _) hk
    obtain ⟨first', second', hhalved', hfirst', hsecond'⟩ :=
      hleaves.split (Nat.le_add_left 1 _) hk
    obtain ⟨rfl, rfl⟩ := Prod.mk.inj (hhalved.unique hhalved')
    rcases Nat.mod_two_eq_zero_or_one i with heven | hodd
    · rw [show i = 2 * (i / 2 + 1) - 1 - 1 by omega, hfirst, hfirst']
    · rw [show i = 2 * (i / 2 + 1) - 1 by omega, hsecond, hsecond']

/-- Splitting a document in which some page is degenerate. What lies behind the first such page is
not looked at. -/
theorem run_splitDocument_of_degenerate {source : σ} {front back : List (SourcePage κ)}
    {bad : SourcePage κ} (hpages : m.pages source = (front ++ bad :: back).map .ok)
    (hbad : bad.box.Degenerate) (hfront : ∀ p ∈ front, ¬ p.box.Degenerate) (b : Bench δ) :
    ∃ b', (splitDocument m source).run b = (.error (.degenerateBox bad.box), b') ∧
      v.pages b'.draft = v.pages b.draft ++ Pages.leaves (front.map v.leaf) ∧
      v.rest b'.draft = v.rest b.draft := by
  obtain ⟨b', hrun, hb'⟩ := v.run_splitPages_append (.ok bad :: back.map .ok) front hfront b
  have hstop : (splitPages m (.ok bad :: back.map .ok)).run b' =
      (.error (.degenerateBox bad.box), b') := by
    rw [splitPages, Step.run_bind_ok (Work.run_ofExcept _ b'),
      Step.run_bind_error (run_splitPage_of_degenerate m hbad b')]
  refine ⟨b', ?_, hb'⟩
  rw [splitDocument, hpages, List.map_append, List.map_cons,
    Step.run_bind_error (hrun.trans hstop)]

/-- **Splitting adds the halves of all pages up to the first that cannot be split.** If all boxes
pass, the number of pages is returned and the draft has the halves of all of them behind its old
pages. Otherwise the failure is that of the first page whose box does not pass, and the draft has
the halves of the pages in front of it, and nothing of the page itself. Either way the old pages
and all else of the draft are as before. -/
theorem splitDocument_appends {source : σ} {pages : List (SourcePage κ)}
    (hpages : m.pages source = pages.map .ok) (b : Bench δ) :
    ∃ outcome b' new, (splitDocument m source).run b = (outcome, b') ∧
      v.pages b'.draft = v.pages b.draft ++ new ∧ v.rest b'.draft = v.rest b.draft ∧
      ((outcome = .ok pages.length ∧ (∀ p ∈ pages, p.box.validate = .ok p.box) ∧
          v.Halves pages new) ∨
        ∃ j bad, 1 ≤ j ∧ pages[j - 1]? = some bad ∧ bad.box.validate = .error bad.box ∧
          (∀ p ∈ pages.take (j - 1), p.box.validate = .ok p.box) ∧
          outcome = .error (.degenerateBox bad.box) ∧ new.length = 2 * (j - 1) ∧
          v.Halves (pages.take (j - 1)) new) := by
  have hpass : ∀ {p : SourcePage κ}, ¬ p.box.Degenerate → p.box.validate = .ok p.box :=
    Box.validate_eq_ok_iff.2
  rcases SourcePage.sound_or_first_degenerate pages with
    hsound | ⟨front, bad, back, rfl, hbad, hfront⟩
  · obtain ⟨b', hrun, hnew, hrest⟩ := v.run_splitDocument hpages hsound b
    exact ⟨_, b', _, hrun, hnew, hrest,
      .inl ⟨rfl, fun p hp => hpass (hsound p hp), v.halves_leaves pages⟩⟩
  · obtain ⟨b', hrun, hnew, hrest⟩ := v.run_splitDocument_of_degenerate hpages hbad hfront b
    have hhalves := v.halves_leaves front
    refine ⟨_, b', _, hrun, hnew, hrest, .inr ⟨front.length + 1, bad, by omega, ?_, ?_, ?_⟩⟩
    · rw [Nat.add_sub_cancel, List.getElem?_append_right (Nat.le_refl _), Nat.sub_self]
      rfl
    · rw [Box.validate, if_pos hbad]
    · rw [Nat.add_sub_cancel, List.take_left]
      exact ⟨fun p hp => hpass (hfront p hp), rfl, hhalves.length, hhalves⟩

/-- A scan whose second page has no width, split into a draft that has a page already: behind that
page there are the two halves of the first page, and nothing else. -/
theorem splitDocument_appends_scan :
    let source : Rehearsal.Source :=
      ⟨"scan", [⟨0, 0, 800, 600⟩, ⟨5, 0, 5, 10⟩, ⟨1, 1, 2, 3⟩], none, false, false⟩
    let draft : Rehearsal.Draft :=
      { Rehearsal.Draft.empty none false with pages := [⟨"old", none⟩] }
    ∃ b', (splitDocument (Rehearsal.medium .smooth) source).run ⟨draft, []⟩ =
        (.error (.degenerateBox ⟨5, 0, 5, 10⟩), b') ∧
      b'.draft.pages = [⟨"old", none⟩, ⟨"scan#1", some ⟨0, 0, 400, 600⟩⟩,
        ⟨"scan#1", some ⟨400, 0, 800, 600⟩⟩] := by
  intro source draft
  have hpages : source.pages = [⟨"scan#1", ⟨0, 0, 800, 600⟩⟩, ⟨"scan#2", ⟨5, 0, 5, 10⟩⟩,
      ⟨"scan#3", ⟨1, 1, 2, 3⟩⟩] := by cbv
  have hfirst : (⟨0, 0, 800, 600⟩ : Box Float).validate = .ok ⟨0, 0, 800, 600⟩ := rfl
  have hsecond : (⟨5, 0, 5, 10⟩ : Box Float).validate = .error ⟨5, 0, 5, 10⟩ := rfl
  have hcut : (⟨0, 0, 800, 600⟩ : Box Float).Halved
      (⟨.left, ⟨0, 0, 400, 600⟩⟩, ⟨.right, ⟨400, 0, 800, 600⟩⟩) := by decide +kernel
  have hread : (Rehearsal.medium .smooth).pages source = source.pages.map .ok := rfl
  obtain ⟨outcome, b', new, hrun, hnew, -, hend⟩ :=
    (Rehearsal.pageView .smooth).splitDocument_appends hread ⟨draft, []⟩
  rw [hpages] at hend
  rcases hend with ⟨-, hpass, -⟩ | ⟨j, bad, hj, hbad, hfail, hpass, rfl, hlength, hhalves⟩
  · exact nomatch hsecond.symm.trans (hpass ⟨"scan#2", ⟨5, 0, 5, 10⟩⟩ (by simp))
  · match j, hj with
    | 1, _ =>
      cases hbad
      exact nomatch hfirst.symm.trans hfail
    | 2, _ =>
      cases hbad
      obtain ⟨x, y, rfl⟩ := List.length_eq_two.1 hlength
      obtain ⟨_, _, hhalved, hx, hy⟩ := hhalves.split (k := 1) (Nat.le_refl 1) rfl
      obtain ⟨rfl, rfl⟩ := Prod.mk.inj (hhalved.unique hcut)
      cases hx
      cases hy
      exact ⟨b', hrun, hnew⟩
    | j + 3, _ =>
      exact nomatch hsecond.symm.trans (hpass ⟨"scan#2", ⟨5, 0, 5, 10⟩⟩ (by simp))

end PageView

end Folio
