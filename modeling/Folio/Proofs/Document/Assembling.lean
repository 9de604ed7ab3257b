import Folio.Batch.Settings
import Folio.Proofs.Document.PageView

/-!
# Assembling a split document

`Medium.assemble` is the split document of a source, made from an empty draft, or the first failure
on the way. It has no log and keeps nothing of a draft that fails. Splitting and repagination yield
the same draft or the same failure (`yields_splitDocument`, `yields_repaginate`).
-/

namespace Folio

variable {ρ σ κ δ α : Type}

namespace Medium

/-- The draft with the two halves of a page. -/
def addLeaf (m : Medium ρ σ κ δ) (p : SourcePage κ) (d : δ) : Except Failure δ :=
  match p.box.split with
  | .error box => .error (.degenerateBox box)
  | .ok (first, second) => .ok (m.addPage p.content second.box (m.addPage p.content first.box d))

/-- The draft with the halves of every page of a list. -/
def addLeaves (m : Medium ρ σ κ δ) : List (Except Failure (SourcePage κ)) → δ → Except Failure δ
  | [], d => .ok d
  | page :: rest, d => page >>= fun p => m.addLeaf p d >>= m.addLeaves rest

/-- A changed draft, unless the change failed. -/
def kept : Except Failure Unit × δ → Except Failure δ
  | (.ok (), d) => .ok d
  | (.error f, _) => .error f

/-- The draft after a list of moves. -/
def moveAll (m : Medium ρ σ κ δ) : List Nat → δ → Except Failure δ
  | [], d => .ok d
  | p :: ps, d => kept (m.moveToEnd p d) >>= m.moveAll ps

/-- The split document of a source, made from an empty draft. -/
def assemble (m : Medium ρ σ κ δ) (settings : Settings ρ) (handle : σ) (d : δ) :
    Except Failure δ := do
  let d ← m.setVersion settings.version d
  let d ← kept (m.describe handle d)
  let d ← m.addLeaves (m.pages handle) d
  m.moveAll (settings.repagination.moves (m.pageCount d)) d

end Medium

/-! ## What work on a draft yields -/

namespace Work

/-- Work that leaves the draft that an outcome gives, or fails as it says. -/
def Yields (w : Work δ α) (b : Bench δ) : Except Failure δ → Prop
  | .ok d => ∃ a b', w.run b = (.ok a, b') ∧ b'.draft = d
  | .error f => ∃ b', w.run b = (.error f, b')

theorem Yields.bind {β : Type} {w : Work δ α} {f : α → Work δ β} {b : Bench δ}
    {r : Except Failure δ} {g : δ → Except Failure δ} (h : w.Yields b r)
    (hf : ∀ a b', (f a).Yields b' (g b'.draft)) : (w >>= f).Yields b (r >>= g) := by
  cases r with
  | error e =>
    obtain ⟨b', hrun⟩ := h
    exact ⟨b', Step.run_bind_error hrun⟩
  | ok d =>
    obtain ⟨a, b', hrun, rfl⟩ := h
    have := hf a b'
    show (w >>= f).Yields b (g b'.draft)
    unfold Yields at this ⊢
    rwa [Step.run_bind_ok hrun]

/-- What follows a piece of work and leaves the draft as it is changes nothing of what is
yielded. -/
theorem Yields.andThen {β : Type} {w : Work δ α} {f : α → Work δ β} {b : Bench δ}
    {r : Except Failure δ} (h : w.Yields b r)
    (hf : ∀ a b', (f a).Yields b' (.ok b'.draft)) : (w >>= f).Yields b r := by
  have := h.bind (g := .ok) hf
  cases r <;> exact this

/-- What is yielded behind a step that is known to succeed. -/
theorem Yields.after {β : Type} {w : Work δ α} {f : α → Work δ β} {b b' : Bench δ} {a : α}
    {r : Except Failure δ} (h : w.run b = (.ok a, b')) (hf : (f a).Yields b' r) :
    (w >>= f).Yields b r := by
  unfold Yields at hf ⊢
  rwa [Step.run_bind_ok h]

theorem yields_attempt (f : δ → Except Failure δ) (b : Bench δ) :
    (attempt f).Yields b (f b.draft) := by
  unfold Yields
  rw [run_attempt]
  cases h : f b.draft with
  | error e => exact ⟨b, rfl⟩
  | ok d => exact ⟨(), _, rfl, rfl⟩

theorem yields_disturb (f : δ → Except Failure Unit × δ) (b : Bench δ) :
    (disturb f).Yields b (Medium.kept (f b.draft)) := by
  unfold Yields
  rw [run_disturb]
  rcases f b.draft with ⟨_ | ⟨⟨⟩⟩, d⟩
  · exact ⟨_, rfl⟩
  · exact ⟨(), _, rfl, rfl⟩

end Work

section
variable (m : Medium ρ σ κ δ)

theorem yields_splitPage (p : SourcePage κ) (b : Bench δ) :
    (splitPage m p).Yields b (m.addLeaf p b.draft) := by
  unfold Work.Yields splitPage Medium.addLeaf
  cases p.box.split with
  | error box => exact ⟨b, rfl⟩
  | ok halves => exact ⟨_, _, rfl, rfl⟩

theorem yields_splitPages :
    ∀ (pages : List (Except Failure (SourcePage κ))) (b : Bench δ),
      (splitPages m pages).Yields b (m.addLeaves pages b.draft)
  | [], b => ⟨(), b, rfl, rfl⟩
  | .error f :: _, b => ⟨b, Step.run_bind_error (Work.run_ofExcept (.error f) b)⟩
  | .ok p :: pages, b =>
    .after (Work.run_ofExcept (.ok p) b)
      ((yields_splitPage m p b).bind fun _ b' => yields_splitPages pages b')

theorem yields_splitDocument (handle : σ) (b : Bench δ) :
    (splitDocument m handle).Yields b (m.addLeaves (m.pages handle) b.draft) :=
  (yields_splitPages m (m.pages handle) b).andThen fun _ b' => ⟨_, b', rfl, rfl⟩

theorem yields_replay :
    ∀ (moves : List Nat) (b : Bench δ), (replay m moves).Yields b (m.moveAll moves b.draft)
  | [], b => ⟨(), b, rfl, rfl⟩
  | p :: moves, b =>
    (Work.yields_disturb (m.moveToEnd p) b).bind fun _ b' => yields_replay moves b'

theorem yields_repaginate (mode : Repagination) (b : Bench δ) :
    (repaginate m mode).Yields b (m.moveAll (mode.moves (m.pageCount b.draft)) b.draft) := by
  cases mode with
  | none => exact ⟨[], b, rfl, rfl⟩
  | lastFirst =>
    simp only [repaginate, Repagination.moves]
    refine .after (Work.run_draft b) ?_
    refine (yields_replay m _ b).andThen fun _ b' => ?_
    exact .after (Work.run_draft b') <| .after (Work.run_note _ b') <| ⟨_, _, rfl, rfl⟩

end

/-! ## What can go wrong -/

/-- Pages that can be read are split, unless the box of one of them is degenerate. -/
theorem Medium.addLeaves_error {m : Medium ρ σ κ δ} {f : Failure} :
    ∀ {pages : List (SourcePage κ)} {d : δ}, m.addLeaves (pages.map .ok) d = .error f →
      ∃ box, f = .degenerateBox box
  | [], _, h => nomatch h
  | p :: pages, d, h => by
    rcases error_of_bind h with h | ⟨_, hp, h⟩
    · cases h
    cases hp
    rcases error_of_bind h with h | ⟨d', -, h⟩
    · unfold addLeaf at h
      split at h <;> cases h
      exact ⟨_, rfl⟩
    · exact addLeaves_error h

/-- A draft that can be read as a list of pages can be repaginated. -/
theorem PageView.moveAll_ok {π φ : Type} {m : Medium ρ σ κ δ} (v : PageView m π φ)
    (mode : Repagination) (d : δ) :
    ∃ d', m.moveAll (mode.moves (m.pageCount d)) d = .ok d' := by
  obtain ⟨b, hrun, -⟩ := v.run_repaginate mode ⟨d, []⟩
  have hyields := yields_repaginate m mode ⟨d, []⟩
  cases hmoves : m.moveAll (mode.moves (m.pageCount d)) d with
  | ok d' => exact ⟨d', rfl⟩
  | error f =>
    rw [hmoves] at hyields
    obtain ⟨b', hrun'⟩ := hyields
    rw [hrun] at hrun'
    cases hrun'

end Folio
