import Folio.Document.Medium
import Folio.Geometry.Cut
import Folio.Pages.Repagination

/-!
# Splitting documents

Every page of a source becomes two pages of a draft, each with the content of the page and cropped
to one half of its box. Afterwards the pages of the draft may be put into another order. A page
that cannot be split ends the splitting; what was added before it stays.
-/

namespace Folio

/-- A draft on the bench, and what was noted while working on it. -/
structure Bench (δ : Type) where
  draft : δ
  log : List Log.Record

/-- Work on a draft that may fail; the draft is kept as the work leaves it. -/
abbrev Work (δ α : Type) := ExceptT Failure (StateM (Bench δ)) α

namespace Work

variable {δ α : Type}

/-- The draft as it is. -/
def draft : Work δ δ := do return (← get).draft

/-- Changes the draft. -/
def change (f : δ → δ) : Work δ Unit := modify fun b => { b with draft := f b.draft }

/-- Notes something. -/
def note (r : Log.Record) : Work δ Unit := modify fun b => { b with log := b.log ++ [r] }

/-- Replaces the draft, unless that fails. -/
def attempt (f : δ → Except Failure δ) : Work δ Unit := do
  match f (← draft) with
  | .ok d => change fun _ => d
  | .error e => throw e

/-- A change that leaves a draft behind even if it fails. -/
def disturb (f : δ → Except Failure Unit × δ) : Work δ Unit := do
  let (outcome, d) := f (← draft)
  change fun _ => d
  match outcome with
  | .ok () => pure ()
  | .error e => throw e

/-- An outcome that does not depend on the draft. -/
def ofExcept : Except Failure α → Work δ α
  | .ok a => pure a
  | .error e => throw e

end Work

variable {ρ σ κ δ : Type}

/-- Splits one page into two pages at the end of the draft, and returns the halves in the order of
their pages. -/
def splitPage (m : Medium ρ σ κ δ) (page : SourcePage κ) : Work δ (Half Float × Half Float) := do
  let (first, second) ← Work.ofExcept (page.box.split.mapError .degenerateBox)
  Work.change fun d => m.addPage page.content second.box (m.addPage page.content first.box d)
  Work.note (Log.debug "splitter"
    (s!"Split {page.box.orientation.text} page {Text.coordinates page.box.toList} into " ++
      s!"{first.side.text} and {second.side.text}"))
  return (first, second)

/-- Splits pages one after the other, up to the first that cannot be read or split. -/
def splitPages (m : Medium ρ σ κ δ) : List (Except Failure (SourcePage κ)) → Work δ Unit
  | [] => pure ()
  | page :: rest => do
    let readable ← Work.ofExcept page
    let _ ← splitPage m readable
    splitPages m rest

/-- Splits every page of a source and returns how many there are. -/
def splitDocument (m : Medium ρ σ κ δ) (source : σ) : Work δ Nat := do
  splitPages m (m.pages source)
  return (m.pages source).length

/-- Moves one position after the other to the end. -/
def replay (m : Medium ρ σ κ δ) : List Nat → Work δ Unit
  | [] => pure ()
  | p :: ps => do
    Work.disturb (m.moveToEnd p)
    replay m ps

/-- Puts the pages into the order of a mode and returns the positions that were moved. -/
def repaginate (m : Medium ρ σ κ δ) : Repagination → Work δ (List Nat)
  | .none => return []
  | .lastFirst => do
    let moves := Pages.lastFirstMoves (m.pageCount (← Work.draft))
    replay m moves
    Work.note (Log.debug "repagination"
      s!"Repaginated {m.pageCount (← Work.draft)} pages, moved positions {Text.positions moves}")
    return moves

end Folio
