import Folio.Output.Store
import Folio.Splitting

/-!
# Runs and their traces

A run works on the store and leaves a trace: which handles were opened and closed, which progress
was reported, and when committing began. Sources and drafts are numbered from `1` in the order in
which they were opened or made.
-/

namespace Folio.Batch

/-- Something that a run did. -/
inductive Event (σ δ : Type) where
  | opened (number : Nat) (source : σ)
  | closedSource (number : Nat) (source : σ)
  | created (number : Nat) (draft : δ)
  | closedDraft (number : Nat) (draft : δ)
  | reported (current total : Int)
  | committing

/-- The store during a run, with the trace so far. -/
structure State (σ δ : Type) where
  store : Store
  /-- How many sources have been opened. -/
  opened : Nat
  /-- How many drafts have been made. -/
  created : Nat
  trace : List (Event σ δ)

/-- The state before a run. -/
def State.start {σ δ : Type} (store : Store) : State σ δ := ⟨store, 0, 0, []⟩

/-- A part of a run. -/
abbrev Run (σ δ α : Type) := ExceptT Failure (StateM (State σ δ)) α

namespace Run

variable {σ δ α : Type}

/-- An outcome that does not depend on the state. -/
def ofExcept : Except Failure α → Run σ δ α
  | .ok a => pure a
  | .error f => throw f

/-- A change of the store. -/
def onStore (action : Store.Action α) : Run σ δ α := ExceptT.mk fun s =>
  let (outcome, store) := action.run s.store
  (outcome, { s with store })

/-- Notes something. -/
def note (r : Log.Record) : Run σ δ Unit := onStore (Store.note r)

/-- Adds an event to the trace. -/
def record (e : Event σ δ) : Run σ δ Unit := modify fun s => { s with trace := s.trace ++ [e] }

/-- What is noted when a handle is closed. A handle that cannot be closed ends nothing. -/
def closeNotes (name : String) (closes : Bool) : List Log.Record :=
  if closes then [] else [Log.warning "batch" s!"Unable to close {name}"]

/-- The state after a handle has been closed. -/
def afterClose (name : String) (closes : Bool) (e : Event σ δ) (s : State σ δ) : State σ δ :=
  { s with
    store := { s.store with log := s.store.log ++ closeNotes name closes }
    trace := s.trace ++ [e] }

/-- Opens a source, works with it, and closes it whatever comes of the work. -/
def withSource {ρ κ : Type} (m : Medium ρ σ κ δ) (source : ρ) (body : σ → Run σ δ α) :
    Run σ δ α := do
  let handle ← ofExcept (m.openSource (← get).store.tree source)
  let number := (← get).opened + 1
  modify fun s => { s with opened := number }
  record (.opened number handle)
  ExceptT.mk fun s =>
    let (outcome, s) := (body handle).run s
    let closed : Event σ δ := .closedSource number handle
    (outcome, afterClose (m.sourceName handle) (m.sourceCloses handle) closed s)

/-- Makes a draft, works on it, and closes it as the work leaves it, whatever comes of the work. -/
def withDraft {ρ κ : Type} (m : Medium ρ σ κ δ)
    (body : δ → StateM (State σ δ) (Except Failure α × δ)) : Run σ δ α := do
  let draft ← ofExcept (m.newDraft (← get).created)
  let number := (← get).created + 1
  modify fun s => { s with created := number }
  record (.created number draft)
  ExceptT.mk fun s =>
    let ((outcome, draft), s) := (body draft).run s
    (outcome, afterClose (m.draftName draft) (m.draftCloses draft) (.closedDraft number draft) s)

/-- Work on a draft, with its notes added to those of the store. -/
def onBench (work : Work δ α) (draft : δ) : StateM (State σ δ) (Except Failure α × δ) := fun s =>
  let (outcome, bench) := work.run ⟨draft, s.store.log⟩
  ((outcome, bench.draft), { s with store := { s.store with log := bench.log } })

/-- If `body` fails, `rescue` is run before the failure goes on. -/
def orElseDo (body : Run σ δ α) (rescue : Run σ δ Unit) : Run σ δ α := ExceptT.mk fun s =>
  match body.run s with
  | (.ok a, s) => (.ok a, s)
  | (.error f, s) =>
    match rescue.run s with
    | (.ok (), s) => (.error f, s)
    | (.error g, s) => (.error g, s)

end Run

end Folio.Batch
