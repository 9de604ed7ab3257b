import Mathlib.Data.List.Forall2
import Folio.Proofs.Document.SavedForm

/-!
# Replays on documents

The moves from the last sheet are computed once, on numbers, and then made one after the other on a
document. `repaginate_lastFirst_agrees` says that the two come to the same: every position is that
of a page when its turn comes (`Replays`), and the pages end up in the order that is computed for
their number (`LastFirstOrdered`). A document file, which refuses positions without a page, and a
rehearsal, which does not look at them first, go through the same steps.
-/

namespace Folio

variable {π : Type}

/-- Sheets of a document file follow every move, and nothing else changes. -/
theorem Pdf.mirror (d : Draft) : Mirror medium fun _ sheets d' => d' = { d with sheets } where
  pageCount_eq h := by
    rw [h]
    rfl
  moveToEnd h h₁ h₂ := by
    subst h
    exact ⟨_, Draft.moveToEnd_eq_ok h₁ h₂, rfl⟩

/-- Pages of a rehearsal follow every move, and the positions are remembered. -/
theorem Rehearsal.mirror (plan : Plan) (d : Draft) :
    Mirror (medium plan) fun done pages d' =>
      d' = { d with pages, moved := d.moved ++ done.map Nat.cast } where
  pageCount_eq h := by
    rw [h]
    rfl
  moveToEnd h h₁ h₂ := by
    subst h
    refine ⟨_, Draft.moveToEnd_eq_ok h₁ h₂, ?_⟩
    simp

namespace Repagination

theorem map_arrange {π' : Type} (f : π → π') (mode : Repagination) (pages : List π) :
    (mode.arrange pages).map f = mode.arrange (pages.map f) := by
  rw [arrange, map_foldl_moveToEnd, arrange, List.length_map]

/-- Pages that correspond one by one still do so when both lists are arranged: the pairs are
arranged as the pages are. -/
theorem forall₂_arrange {π' : Type} {r : π → π' → Prop} (mode : Repagination) {pages : List π}
    {pages' : List π'} (h : List.Forall₂ r pages pages') :
    List.Forall₂ r (mode.arrange pages) (mode.arrange pages') := by
  obtain ⟨hlength, hr⟩ := List.forall₂_iff_zip.1 h
  have hfst : (mode.arrange (pages.zip pages')).map Prod.fst = mode.arrange pages := by
    rw [map_arrange, List.map_fst_zip (Nat.le_of_eq hlength)]
  have hsnd : (mode.arrange (pages.zip pages')).map Prod.snd = mode.arrange pages' := by
    rw [map_arrange, List.map_snd_zip (Nat.le_of_eq hlength.symm)]
  rw [← hfst, ← hsnd, List.forall₂_map_left_iff, List.forall₂_map_right_iff, List.forall₂_same]
  intro x hx
  exact hr ((Pages.perm_foldl_moveToEnd _ _).mem_iff.1 hx)

end Repagination

/-- Pages in the order that is computed for their number. -/
structure LastFirstOrdered (pages new : List π) : Prop where
  order : new.map some = (Pages.lastFirstOrder pages.length).map fun k => pages[k - 1]?
  perm : new.Perm pages

theorem lastFirstOrdered_arrange (pages : List π) :
    LastFirstOrdered pages (Repagination.lastFirst.arrange pages) where
  order := Repagination.map_some_arrange .lastFirst pages
  perm := Pages.perm_foldl_moveToEnd _ pages

/-- **A replay on a document agrees with the computed order**, on document files and on rehearsals.
No move fails, as each position is that of a page when its turn comes, and nothing but the order of
the pages is changed. That order is the one computed for their number, and pages of two drafts that
corresponded still do, whatever it is that relates them. -/
theorem repaginate_lastFirst_agrees (plan : Rehearsal.Plan) {r : Pdf.Sheet → Rehearsal.Page → Prop}
    (d : Pdf.Draft) (e : Rehearsal.Draft) (log log' : List Log.Record)
    (hr : List.Forall₂ r d.sheets e.pages) :
    let n := d.sheets.length
    let moves := Pages.lastFirstMoves n
    (Pages.lastFirstOrder n).Perm (List.range' 1 n) ∧
      Pages.applyMoves (moves.map Nat.cast) (List.range' 1 n) = .ok (Pages.lastFirstOrder n) ∧
      ∃ sheets pages d' e' note, d' = { d with sheets } ∧
        e' = { e with pages, moved := e.moved ++ moves.map Nat.cast } ∧
        (repaginate Pdf.medium .lastFirst).run ⟨d, log⟩ = (.ok moves, ⟨d', log ++ [note]⟩) ∧
        (repaginate (Rehearsal.medium plan) .lastFirst).run ⟨e, log'⟩ =
          (.ok moves, ⟨e', log' ++ [note]⟩) ∧
        Replays Pdf.medium moves ⟨d, log⟩ ⟨d', log⟩ ∧
        Replays (Rehearsal.medium plan) moves ⟨e, log'⟩ ⟨e', log'⟩ ∧
        LastFirstOrdered d.sheets sheets ∧ LastFirstOrdered e.pages pages ∧
        List.Forall₂ r sheets pages := by
  intro n moves
  have hlength : e.pages.length = n := hr.length_eq.symm
  have hrange : ∀ p ∈ moves, 1 ≤ p ∧ p ≤ (List.range' 1 n).length := by
    intro p hp
    rw [List.length_range']
    exact (Pages.mem_lastFirstMoves.1 hp).1
  have hstart : e = { e with moved := e.moved ++ ([] : List Nat).map Nat.cast } := by
    rw [List.map_nil, List.append_nil]
  obtain ⟨d', hrun, hreplays, hd⟩ := (Pdf.mirror d).run_repaginate log rfl
  obtain ⟨e', hrun', hreplays', he⟩ := (Rehearsal.mirror plan e).run_repaginate log' hstart
  rw [hlength] at hrun' hreplays' he
  exact ⟨Pages.perm_foldl_moveToEnd moves _, Pages.applyMoves_eq_ok hrange, _, _, d', e', _, hd, he,
    hrun, hrun', hreplays, hreplays', lastFirstOrdered_arrange _, lastFirstOrdered_arrange _,
    Repagination.forall₂_arrange .lastFirst hr⟩

/-- Five labels on sheets and on pages of a rehearsal: the same labels end up side by side. -/
theorem repaginate_lastFirst_agrees_five :
    let labels := ["a", "b", "c", "d", "e"]
    let d : Pdf.Draft := { Pdf.Draft.empty with
      sheets := labels.mapIdx fun i label => ⟨i, .of label ⟨0, 0, 1, 1⟩ none none none⟩ }
    let e : Rehearsal.Draft := { Rehearsal.Draft.empty none false with
      pages := labels.map fun label => ⟨label, none⟩ }
    ∃ b b', (repaginate Pdf.medium .lastFirst).run ⟨d, []⟩ = (.ok [5, 2, 1], b) ∧
      (repaginate (Rehearsal.medium .smooth) .lastFirst).run ⟨e, []⟩ = (.ok [5, 2, 1], b') ∧
      List.Forall₂ (fun s p => s.page.label = p.label) b.draft.sheets b'.draft.pages ∧
      b'.draft.pages = ["c", "d", "e", "b", "a"].map fun label => ⟨label, none⟩ := by
  intro labels d e
  have hr : List.Forall₂ (fun (s : Pdf.Sheet) (p : Rehearsal.Page) => s.page.label = p.label)
      d.sheets e.pages := .cons rfl (.cons rfl (.cons rfl (.cons rfl (.cons rfl .nil))))
  have hmoves : Pages.lastFirstMoves d.sheets.length = [5, 2, 1] := by decide
  have horder : Pages.lastFirstOrder e.pages.length = [3, 4, 5, 2, 1] := by decide
  obtain ⟨-, -, sheets, pages, -, -, note, rfl, rfl, hrun, hrun', -, -, -, hordered, hsame⟩ :=
    repaginate_lastFirst_agrees .smooth d e [] [] hr
  rw [hmoves] at hrun hrun'
  refine ⟨_, _, hrun, hrun', hsame, List.map_injective_iff.2 (fun _ _ h => Option.some.inj h) ?_⟩
  rw [hordered.order, horder]
  rfl

end Folio
