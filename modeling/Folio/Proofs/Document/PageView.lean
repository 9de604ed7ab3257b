import Folio.Document.Rehearsal
import Folio.Pdf.Draft
import Folio.Proofs.Effects
import Folio.Proofs.Pages.Booklet
import Folio.Splitting

/-!
# Drafts as lists of pages

A `PageView` reads a draft as a list of pages, beside whatever else there is to it, and says what
the operations of a medium do to that list. Document files and rehearsals both have one
(`Pdf.pageView`, `Rehearsal.pageView`), so what is shown here of splitting and repagination holds of
either: `run_splitDocument` for the pages that splitting adds, `run_repaginate` for their order.
-/

namespace Folio

variable {ρ σ κ δ π φ : Type}

/-! ## Work on a draft, step by step -/

namespace Work

variable {α : Type}

@[simp] theorem run_draft (b : Bench δ) : (draft : Work δ δ).run b = (.ok b.draft, b) := rfl

@[simp] theorem run_note (r : Log.Record) (b : Bench δ) :
    (note r : Work δ Unit).run b = (.ok (), { b with log := b.log ++ [r] }) := rfl

@[simp] theorem run_change (f : δ → δ) (b : Bench δ) :
    (change f).run b = (.ok (), { b with draft := f b.draft }) := rfl

@[simp] theorem run_ofExcept (x : Except Failure α) (b : Bench δ) :
    (ofExcept x : Work δ α).run b = (x, b) := by
  cases x <;> rfl

theorem run_attempt (f : δ → Except Failure δ) (b : Bench δ) :
    (attempt f).run b =
      match f b.draft with
      | .ok d => (.ok (), { b with draft := d })
      | .error e => (.error e, b) := by
  rw [attempt, Step.run_bind_ok (run_draft b)]
  cases f b.draft <;> rfl

theorem run_disturb (f : δ → Except Failure Unit × δ) (b : Bench δ) :
    (disturb f).run b = ((f b.draft).1, { b with draft := (f b.draft).2 }) := by
  rw [disturb, Step.run_bind_ok (run_draft b)]
  rcases f b.draft with ⟨_ | _, _⟩ <;> rfl

end Work

/-! ## Views -/

namespace Repagination

/-- The positions that a mode moves in a document of `count` pages. -/
def moves : Repagination → Nat → List Nat
  | none, _ => []
  | lastFirst, count => Pages.lastFirstMoves count

/-- Pages in the order that a mode gives them. -/
def arrange (mode : Repagination) (pages : List π) : List π :=
  (mode.moves pages.length).foldl (fun pages p => Pages.moveToEnd (p - 1) pages) pages

end Repagination

/-- The halves of the box of a page, in the order in which they become pages. -/
def SourcePage.halves (p : SourcePage κ) : Half Float × Half Float :=
  p.box.halves p.box.orientation

/-- A draft of a medium as a list of pages and a rest that pages do not touch. -/
structure PageView (m : Medium ρ σ κ δ) (π φ : Type) where
  /-- The pages of a draft, in order. -/
  pages : δ → List π
  /-- The page that some content becomes, cropped or as it is. -/
  page : κ → Option (Box Float) → π
  /-- What there is to a draft besides its pages. -/
  rest : δ → φ
  pages_addPage : ∀ content crop d,
    pages (m.addPage content crop d) = pages d ++ [page content crop]
  rest_addPage : ∀ content crop d, rest (m.addPage content crop d) = rest d
  pageCount_eq : ∀ d, m.pageCount d = (pages d).length
  moveToEnd_ok : ∀ d (p : Nat), 1 ≤ p → p ≤ (pages d).length → (m.moveToEnd p d).1 = .ok ()
  pages_moveToEnd : ∀ d (p : Nat), 1 ≤ p → p ≤ (pages d).length →
    pages (m.moveToEnd p d).2 = Pages.moveToEnd (p - 1) (pages d)
  rest_moveToEnd : ∀ d p, rest (m.moveToEnd p d).2 = rest d

/-- A document file moves the sheet at a position that exists. -/
theorem Pdf.Draft.moveToEnd_eq_ok {d : Draft} {p : Nat} (h₁ : 1 ≤ p) (h₂ : p ≤ d.sheets.length) :
    d.moveToEnd p = (.ok (), { d with sheets := Pages.moveToEnd (p - 1) d.sheets }) := by
  have h : (1 : Int) ≤ p ∧ (p : Int) ≤ d.sheets.length := by omega
  have hp : ((p : Int) - 1).toNat = p - 1 := by omega
  rw [moveToEnd, if_pos h, hp]

/-- A rehearsal moves the page at a position that exists, and remembers the position. -/
theorem Rehearsal.Draft.moveToEnd_eq_ok {d : Draft} {p : Nat} (h₁ : 1 ≤ p)
    (h₂ : p ≤ d.pages.length) :
    d.moveToEnd p =
      (.ok (), { d with pages := Pages.moveToEnd (p - 1) d.pages, moved := d.moved ++ [↑p] }) := by
  simp only [moveToEnd, Pages.move_eq_ok h₁ h₂]

/-- The pages of a document file, beside its name, what was written, version and description. -/
def Pdf.pageView :
    PageView Pdf.medium Pdf.Page (String × List Pdf.Sheet × Option String × Pdf.Description) where
  pages d := d.sheets.map Sheet.page
  page content crop := { content with crop := crop.getD content.crop }
  rest d := (d.name, d.written, d.version, d.description)
  pages_addPage _ _ _ := by simp [medium, Draft.addPage]
  rest_addPage _ _ _ := rfl
  pageCount_eq _ := by simp [medium]
  moveToEnd_ok d p h₁ h₂ := by
    rw [List.length_map] at h₂
    simp [medium, Draft.moveToEnd_eq_ok h₁ h₂]
  pages_moveToEnd d p h₁ h₂ := by
    rw [List.length_map] at h₂
    simp [medium, Draft.moveToEnd_eq_ok h₁ h₂, Pages.moveToEnd, List.eraseIdx_eq_take_drop_succ,
      Option.toList_map]
  rest_moveToEnd d p := by
    simp only [medium, Draft.moveToEnd]
    split <;> rfl

/-- The pages of a rehearsed draft, beside version, title and what is to fail. -/
def Rehearsal.pageView (plan : Plan) :
    PageView (medium plan) Page (Option String × Option String × Option SaveFault × Bool) where
  pages d := d.pages
  page label crop := ⟨label, crop⟩
  rest d := (d.version, d.title, d.saveFault, d.stuck)
  pages_addPage _ _ _ := rfl
  rest_addPage _ _ _ := rfl
  pageCount_eq _ := rfl
  moveToEnd_ok d p h₁ h₂ := by simp [medium, Draft.moveToEnd_eq_ok h₁ h₂]
  pages_moveToEnd d p h₁ h₂ := by simp [medium, Draft.moveToEnd_eq_ok h₁ h₂]
  rest_moveToEnd d p := by
    simp only [medium, Draft.moveToEnd]
    split <;> rfl

/-! ## Splitting -/

/-- The box of a page that is not degenerate is split into the halves of the page. -/
theorem SourcePage.split_eq_halves {p : SourcePage κ} (hp : ¬ p.box.Degenerate) :
    p.box.split = .ok p.halves :=
  Box.cut_of_not_degenerate _ hp

/-- A page that is not degenerate is split into its halves. -/
theorem run_splitPage (m : Medium ρ σ κ δ) {p : SourcePage κ} (hp : ¬ p.box.Degenerate)
    (b : Bench δ) :
    ∃ log, (splitPage m p).run b =
      (.ok p.halves, ⟨m.addPage p.content p.halves.2.box
        (m.addPage p.content p.halves.1.box b.draft), log⟩) := by
  have hhalves : p.box.split.mapError Failure.degenerateBox = .ok p.halves := by
    rw [SourcePage.split_eq_halves hp]
    rfl
  unfold splitPage
  rw [hhalves, Step.run_bind_ok (Work.run_ofExcept (.ok p.halves) b)]
  exact ⟨_, rfl⟩

namespace PageView

variable {m : Medium ρ σ κ δ} (v : PageView m π φ)

/-- The two pages that a page of a source becomes. -/
def leaf (p : SourcePage κ) : π × π :=
  (v.page p.content p.halves.1.box, v.page p.content p.halves.2.box)

/-- Sound pages that are split add their halves at the end and leave all else alone, and the
splitting goes on behind them. The induction is on the pages; the draft that the next page is added
to is any. -/
theorem run_splitPages_append (rest : List (Except Failure (SourcePage κ))) :
    ∀ (pages : List (SourcePage κ)), (∀ p ∈ pages, ¬ p.box.Degenerate) → ∀ b : Bench δ,
      ∃ b', (splitPages m (pages.map .ok ++ rest)).run b = (splitPages m rest).run b' ∧
        v.pages b'.draft = v.pages b.draft ++ Pages.leaves (pages.map v.leaf) ∧
        v.rest b'.draft = v.rest b.draft
  | [], _, b => ⟨b, rfl, by simp [Pages.leaves], rfl⟩
  | p :: pages, h, b => by
    obtain ⟨log, hp⟩ := run_splitPage m (h p List.mem_cons_self) b
    obtain ⟨b', hrun, hpages, hrest⟩ := run_splitPages_append rest pages
      (fun q hq => h q (List.mem_cons_of_mem _ hq)) _
    refine ⟨b', ?_, hpages.trans ?_, hrest.trans ?_⟩
    · rw [List.map_cons, List.cons_append, splitPages, Step.run_bind_ok (Work.run_ofExcept _ b),
        Step.run_bind_ok hp, hrun]
    · simp [v.pages_addPage, Pages.leaves, leaf]
    · rw [v.rest_addPage, v.rest_addPage]

/-- Splitting a document of sound pages. -/
theorem run_splitDocument {source : σ} {pages : List (SourcePage κ)}
    (hpages : m.pages source = pages.map .ok) (h : ∀ p ∈ pages, ¬ p.box.Degenerate)
    (b : Bench δ) :
    ∃ b', (splitDocument m source).run b = (.ok pages.length, b') ∧
      v.pages b'.draft = v.pages b.draft ++ Pages.leaves (pages.map v.leaf) ∧
      v.rest b'.draft = v.rest b.draft := by
  obtain ⟨b', hrun, hb'⟩ := v.run_splitPages_append [] pages h b
  rw [List.append_nil] at hrun
  refine ⟨b', ?_, hb'⟩
  rw [splitDocument, hpages, Step.run_bind_ok hrun, Step.run_pure, List.length_map]

end PageView

/-! ## Repagination -/

/-- A replay in which every position is one of a page at the moment when it is moved. -/
inductive Replays (m : Medium ρ σ κ δ) : List Nat → Bench δ → Bench δ → Prop
  | nil (b : Bench δ) : Replays m [] b b
  | cons {p : Nat} {moves : List Nat} {b b' : Bench δ} {d : δ} :
      1 ≤ p → p ≤ m.pageCount b.draft → m.moveToEnd p b.draft = (.ok (), d) →
      Replays m moves { b with draft := d } b' → Replays m (p :: moves) b b'

theorem Replays.run {m : Medium ρ σ κ δ} {moves : List Nat} {b b' : Bench δ}
    (h : Replays m moves b b') : (replay m moves).run b = (.ok (), b') := by
  induction h with
  | nil b => rfl
  | @cons p moves b b' d h₁ h₂ hmove hmoves ih =>
    have hstep : (Work.disturb (m.moveToEnd p)).run b = (.ok (), { b with draft := d }) := by
      rw [Work.run_disturb, hmove]
    rw [replay, Step.run_bind_ok hstep, ih]

/-- A relation of drafts to the positions that were moved and to the pages as they are then, which
every move of a page keeps. -/
structure Mirror (m : Medium ρ σ κ δ) (R : List Nat → List π → δ → Prop) : Prop where
  pageCount_eq : ∀ {done pages d}, R done pages d → m.pageCount d = pages.length
  moveToEnd : ∀ {done pages d} {p : Nat}, R done pages d → 1 ≤ p → p ≤ pages.length →
    ∃ d', m.moveToEnd p d = (.ok (), d') ∧ R (done ++ [p]) (Pages.moveToEnd (p - 1) pages) d'

namespace Mirror

variable {m : Medium ρ σ κ δ} {R : List Nat → List π → δ → Prop}

/-- Positions that all exist can be replayed, and the draft follows. That they exist at the start
is enough, as a move changes no page count. -/
theorem replays (h : Mirror m R) :
    ∀ (moves : List Nat) {done : List Nat} {pages : List π} {d : δ} (log : List Log.Record),
      R done pages d → (∀ p ∈ moves, 1 ≤ p ∧ p ≤ pages.length) →
      ∃ d', Replays m moves ⟨d, log⟩ ⟨d', log⟩ ∧
        R (done ++ moves) (moves.foldl (fun pages p => Pages.moveToEnd (p - 1) pages) pages) d'
  | [], done, pages, d, log, hR, _ => ⟨d, .nil _, by rwa [List.append_nil]⟩
  | p :: moves, done, pages, d, log, hR, hmoves => by
    obtain ⟨h₁, h₂⟩ := hmoves p List.mem_cons_self
    obtain ⟨d₁, hmove, hR₁⟩ := h.moveToEnd hR h₁ h₂
    have hrest : ∀ q ∈ moves, 1 ≤ q ∧ q ≤ (Pages.moveToEnd (p - 1) pages).length := by
      intro q hq
      rw [Pages.length_moveToEnd]
      exact hmoves q (List.mem_cons_of_mem _ hq)
    obtain ⟨d', hreplays, hR'⟩ := h.replays moves log hR₁ hrest
    refine ⟨d', .cons h₁ ((h.pageCount_eq hR).symm ▸ h₂) hmove hreplays, ?_⟩
    rw [List.append_assoc] at hR'
    exact hR'

/-- Repagination from the last sheet notes how many pages there are and what was moved. -/
theorem run_repaginate (h : Mirror m R) {pages : List π} {d : δ} (log : List Log.Record)
    (hR : R [] pages d) :
    let moves := Pages.lastFirstMoves pages.length
    ∃ d', (repaginate m .lastFirst).run ⟨d, log⟩ = (.ok moves, ⟨d', log ++
        [Log.debug "repagination"
          s!"Repaginated {pages.length} pages, moved positions {Text.positions moves}"]⟩) ∧
      Replays m moves ⟨d, log⟩ ⟨d', log⟩ ∧
      R moves (Repagination.lastFirst.arrange pages) d' := by
  intro moves
  obtain ⟨d', hreplays, hR'⟩ := h.replays moves log hR
    fun p hp => (Pages.mem_lastFirstMoves.1 hp).1
  refine ⟨d', ?_, hreplays, hR'⟩
  have hcount : m.pageCount d' = pages.length :=
    (h.pageCount_eq hR').trans (Pages.perm_foldl_moveToEnd moves pages).length_eq
  rw [repaginate, Step.run_bind_ok (Work.run_draft _), h.pageCount_eq hR,
    Step.run_bind_ok hreplays.run, Step.run_bind_ok (Work.run_draft _), hcount]
  rfl

end Mirror

namespace PageView

variable {m : Medium ρ σ κ δ} (v : PageView m π φ)

/-- The pages of a draft follow every move, and all else of it stays. -/
theorem mirror (rest : φ) : Mirror m fun _ pages d => v.pages d = pages ∧ v.rest d = rest where
  pageCount_eq {_ pages d} h := (v.pageCount_eq d).trans (congrArg List.length h.1)
  moveToEnd {_ pages d p} h h₁ h₂ := by
    obtain ⟨rfl, hrest⟩ := h
    exact ⟨(m.moveToEnd p d).2, Prod.ext (v.moveToEnd_ok d p h₁ h₂) rfl,
      v.pages_moveToEnd d p h₁ h₂, (v.rest_moveToEnd d p).trans hrest⟩

/-- Repagination puts the pages into the order of its mode, leaves all else alone and returns the
positions that were moved. -/
theorem run_repaginate (mode : Repagination) (b : Bench δ) :
    ∃ b', (repaginate m mode).run b = (.ok (mode.moves (v.pages b.draft).length), b') ∧
      v.pages b'.draft = mode.arrange (v.pages b.draft) ∧ v.rest b'.draft = v.rest b.draft := by
  cases mode with
  | none => exact ⟨b, rfl, rfl, rfl⟩
  | lastFirst =>
    obtain ⟨d', hrun, -, hd'⟩ := (v.mirror (v.rest b.draft)).run_repaginate b.log ⟨rfl, rfl⟩
    exact ⟨_, hrun, hd'⟩

end PageView

end Folio
