import Folio.Proofs.Document.PageView
import Folio.Proofs.Pages.Positions

/-!
# Any positions in lists and in documents

A document file has pages at positions from `1` on, and looks whether there is one before it moves
it. A list counts positions from `0` downwards from its end, and leaves it to the index whether
there is a page. `moving_anywhere` says for which positions either of them goes on, that they agree
where both do, and what they leave where they do not. An index that is no word of 64 bits is refused
as too large before it is looked up, so not all that a list refuses is refused as an index
(`not_kind_of_applyMoves`).
-/

namespace Folio

variable {α : Type}

/-! ## Moves in a document file -/

namespace Pdf

variable {d : Draft} {moves : List Int}

/-- Moves the pages at any positions to the end, one after the other, up to the first position that
is refused. -/
def moveEach : List Int → Work Draft Unit
  | [] => pure ()
  | p :: ps => do
    Work.disturb (medium.moveToEnd p)
    moveEach ps

/-- Positions from `1` on are replayed. -/
theorem moveEach_cast (moves : List Nat) :
    moveEach (moves.map Nat.cast) = replay medium moves := by
  induction moves with
  | nil => rfl
  | cons p moves ih => rw [List.map_cons, moveEach, replay, ih]

/-- Positions that exist are moved as they are in the list of sheets, and what follows goes on from
there. The induction is on the positions. -/
theorem run_moveEach_append (back : List Int) (log : List Log.Record) :
    ∀ {front : List Int} {d : Draft}, (∀ p ∈ front, 1 ≤ p ∧ p ≤ d.sheets.length) →
      ∃ sheets, Pages.applyMoves front d.sheets = .ok sheets ∧
        (moveEach (front ++ back)).run ⟨d, log⟩ = (moveEach back).run ⟨{ d with sheets }, log⟩
  | [], d, _ => ⟨d.sheets, rfl, rfl⟩
  | p :: front, d, h => by
    rw [List.forall_mem_cons] at h
    obtain ⟨⟨h₁, h₂⟩, hfront⟩ := h
    obtain ⟨n, rfl⟩ := Int.eq_ofNat_of_zero_le (show 0 ≤ p by omega)
    have hn : 1 ≤ n ∧ n ≤ d.sheets.length := by omega
    have hmove : medium.moveToEnd n d =
        (.ok (), { d with sheets := Pages.moveToEnd (n - 1) d.sheets }) :=
      Draft.moveToEnd_eq_ok hn.1 hn.2
    have hstep : (Work.disturb (medium.moveToEnd n)).run ⟨d, log⟩ =
        (.ok (), ⟨{ d with sheets := Pages.moveToEnd (n - 1) d.sheets }, log⟩) := by
      rw [Work.run_disturb, hmove]
    have hnext : ∀ p ∈ front, 1 ≤ p ∧ p ≤ (Pages.moveToEnd (n - 1) d.sheets).length := by
      simpa using hfront
    obtain ⟨sheets, hlist, hrun⟩ := run_moveEach_append back log
      (d := { d with sheets := Pages.moveToEnd (n - 1) d.sheets }) hnext
    refine ⟨sheets, ?_, ?_⟩
    · rw [Pages.applyMoves, Pages.move_eq_ok hn.1 hn.2]
      exact hlist
    · rw [List.cons_append, moveEach, Step.run_bind_ok hstep, hrun]

theorem run_moveEach_of_pages (log : List Log.Record)
    (h : ∀ p ∈ moves, 1 ≤ p ∧ p ≤ d.sheets.length) :
    ∃ sheets, Pages.applyMoves moves d.sheets = .ok sheets ∧
      (moveEach moves).run ⟨d, log⟩ = (.ok (), ⟨{ d with sheets }, log⟩) := by
  obtain ⟨sheets, hlist, hrun⟩ := run_moveEach_append [] log h
  rw [List.append_nil] at hrun
  exact ⟨sheets, hlist, hrun⟩

/-- The first position without a page is refused, and the pages stay as the positions before it left
them. -/
theorem run_moveEach_of_no_page {front back : List Int} {p : Int} (log : List Log.Record)
    (hfront : ∀ q ∈ front, 1 ≤ q ∧ q ≤ d.sheets.length) (hp : ¬ (1 ≤ p ∧ p ≤ d.sheets.length)) :
    ∃ sheets, Pages.applyMoves front d.sheets = .ok sheets ∧
      (moveEach (front ++ p :: back)).run ⟨d, log⟩ =
        (.error (.noPageAtPosition p d.sheets.length), ⟨{ d with sheets }, log⟩) := by
  obtain ⟨sheets, hlist, hrun⟩ := run_moveEach_append (p :: back) log hfront
  refine ⟨sheets, hlist, hrun.trans ?_⟩
  rw [← (Pages.perm_of_applyMoves hlist).length_eq] at hp ⊢
  have hmove : medium.moveToEnd p { d with sheets } =
      (.error (.noPageAtPosition p sheets.length), { d with sheets }) := if_neg hp
  have hstep : (Work.disturb (medium.moveToEnd p)).run ⟨{ d with sheets }, log⟩ =
      (.error (.noPageAtPosition p sheets.length), ⟨{ d with sheets }, log⟩) := by
    rw [Work.run_disturb, hmove]
  exact Step.run_bind_error hstep

/-- **A document file moves the pages just if there is one at each position.** -/
theorem run_moveEach_ok_iff (log : List Log.Record) :
    ((moveEach moves).run ⟨d, log⟩).1 = .ok () ↔ ∀ p ∈ moves, 1 ≤ p ∧ p ≤ d.sheets.length := by
  constructor
  · intro hok
    rcases all_or_first (fun p : Int => 1 ≤ p ∧ p ≤ d.sheets.length) moves with
      hall | ⟨front, p, back, rfl, hfront, hp⟩
    · exact hall
    · obtain ⟨sheets, -, hrun⟩ := run_moveEach_of_no_page log hfront hp
      rw [hrun] at hok
      cases hok
  · intro hall
    obtain ⟨sheets, -, hrun⟩ := run_moveEach_of_pages log hall
    rw [hrun]

end Pdf

/-! ## Lists and documents -/

theorem Failure.kind_move (f : Pages.MoveFault) :
    (Failure.move f).kind = if f = .unusable then .overflow else .index := by
  cases f <;> rfl

/-- What becomes of a list of pages when the pages at any positions are moved to its end. -/
structure Pages.Moving (moves : List Int) (pages : List α) : Prop where
  ok_iff : (∃ r, applyMoves moves pages = .ok r) ↔ ∀ p ∈ moves, Within pages.length p
  perm : ∀ r, applyMoves moves pages = .ok r → r.Perm pages
  /-- A position that counts from the end is as good as the one that counts from the front. -/
  wraps : ∀ front (p : Int) back, moves = front ++ p :: back → p ≤ 0 → Within pages.length p →
    applyMoves (front ++ (p + pages.length) :: back) pages = applyMoves moves pages
  /-- The first position without a page is refused as an index, or for not being one. -/
  error : ∀ front (p : Int) back, moves = front ++ p :: back →
    (∀ q ∈ front, Within pages.length q) → ¬ Within pages.length p →
    ∃ f, applyMoves moves pages = .error f ∧
      (Failure.move f).kind = if -2 ^ 63 ≤ p - 1 ∧ p - 1 < 2 ^ 63 then .index else .overflow

/-- What becomes of a document file when the pages at any positions are moved to its end. -/
structure Pdf.Moving (moves : List Int) (d : Draft) (log : List Log.Record) : Prop where
  ok_iff : ((moveEach moves).run ⟨d, log⟩).1 = .ok () ↔
    ∀ p ∈ moves, 1 ≤ p ∧ p ≤ d.sheets.length
  /-- The list of pages is then the one that the list of pages gives. -/
  agrees : (∀ p ∈ moves, 1 ≤ p ∧ p ≤ d.sheets.length) →
    ∃ sheets, Pages.applyMoves moves d.sheets = .ok sheets ∧
      (moveEach moves).run ⟨d, log⟩ = (.ok (), ⟨{ d with sheets }, log⟩)
  /-- The first position without a page is refused as an index, with the pages as they are then. -/
  error : ∀ front (p : Int) back, moves = front ++ p :: back →
    (∀ q ∈ front, 1 ≤ q ∧ q ≤ d.sheets.length) → ¬ (1 ≤ p ∧ p ≤ d.sheets.length) →
    ∃ f sheets, f.kind = .index ∧ Pages.applyMoves front d.sheets = .ok sheets ∧
      (moveEach moves).run ⟨d, log⟩ = (.error f, ⟨{ d with sheets }, log⟩)

/-- **Moves of any positions.** A list goes on as long as there is a page at each position, from
whichever end it counts, and keeps its pages. A document file goes on as long as there is a page at
each position that counts from the front; then it agrees with the list, and where it does not go on
it is left as it is. -/
theorem moving_anywhere (moves : List Int) (pages : List α) (d : Pdf.Draft)
    (log : List Log.Record) : Pages.Moving moves pages ∧ Pdf.Moving moves d log := by
  refine ⟨⟨Pages.exists_applyMoves_iff, fun r => Pages.perm_of_applyMoves, ?_, ?_⟩,
    Pdf.run_moveEach_ok_iff log, Pdf.run_moveEach_of_pages log, ?_⟩
  · rintro front p back rfl hp hwithin
    exact Pages.applyMoves_add_length hp hwithin
  · rintro front p back rfl hfront hp
    obtain ⟨f, hrun, hf⟩ := Pages.applyMoves_of_not_within hfront hp
    refine ⟨f, hrun, ?_⟩
    simp only [Failure.kind_move, hf, ite_not]
  · rintro front p back rfl hfront hp
    obtain ⟨sheets, hlist, hrun⟩ := Pdf.run_moveEach_of_no_page log hfront hp
    exact ⟨_, sheets, rfl, hlist, hrun⟩

/-- Three labels moved from both ends, and a document file of three pages that refuses the first
position that counts from the end. -/
theorem moving_anywhere_three :
    let d : Pdf.Draft := { Pdf.Draft.empty with
      sheets := ["a", "b", "c"].mapIdx fun i label => ⟨i, .of label ⟨0, 0, 1, 1⟩ none none none⟩ }
    let moves : List Int := [2, 0, -2]
    Pages.applyMoves moves ["a", "b", "c"] = .ok ["c", "b", "a"] ∧
      Pages.applyMoves [2, 3, -2] ["a", "b", "c"] = .ok ["c", "b", "a"] ∧
      ∃ f b, (Pdf.moveEach moves).run ⟨d, []⟩ = (.error f, b) ∧ f.kind = .index ∧
        b.draft.sheets.map (·.page.label) = ["a", "c", "b"] := by
  intro d moves
  obtain ⟨hlist, hdocument⟩ := moving_anywhere moves ["a", "b", "c"] d []
  have hrun : Pages.applyMoves moves ["a", "b", "c"] = .ok ["c", "b", "a"] := by decide
  refine ⟨hrun, ?_, ?_⟩
  · exact (hlist.wraps [2] 0 [-2] rfl (by decide) (by decide)).trans hrun
  · obtain ⟨f, sheets, hkind, hsheets, hrefused⟩ :=
      hdocument.error [2] 0 [-2] rfl (by decide) (by decide)
    cases hsheets
    exact ⟨f, _, hrefused, hkind, rfl⟩

/-- **Not all that a list refuses is refused as an index**: a position may be none in a list of any
length. -/
theorem not_kind_of_applyMoves :
    ¬ ∀ (moves : List Int) (pages : List String) (f : Pages.MoveFault),
      Pages.applyMoves moves pages = .error f → (Failure.move f).kind = .index := by
  intro h
  have hrefused : Pages.applyMoves [10 ^ 30] ["a", "b"] = .error .unusable := by decide
  exact nomatch h [10 ^ 30] ["a", "b"] .unusable hrefused

end Folio
