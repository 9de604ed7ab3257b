import Folio.Batch.Settings
import Folio.Batch.Trace
import Folio.Progress

/-!
# Running a batch

Every source is opened, split into a draft of its own, and saved to a temporary buffer; when all
of them are done the buffers are committed to the output directory. Any failure ends the batch:
nothing is committed and the buffers made so far are removed.
-/

namespace Folio.Batch

/-- Makes an output name from a pattern, the name of a source and its number in the batch. -/
abbrev Namer := String → String → Int → Except Failure String

/-- Names outputs at a given time. -/
def namerAt (time : Instant) : Namer := fun pattern source number =>
  .ok (Naming.outputName pattern ⟨source, number, time⟩)

/-- Is told how many sources are done; it may note something, and it may fail. -/
abbrev Notifier := Int → Int → List Log.Record × Except Failure Unit

namespace Notifier

/-- Notes nothing. -/
def silent : Notifier := fun _ _ => ([], .ok ())

/-- Notes every step. -/
def logging : Notifier := fun current total =>
  ([Log.info "progress" s!"Completed {current} of {total}"], .ok ())

/-- Fails at one step. -/
def failingAt (step : Int) : Notifier := fun current _ =>
  ([], if current = step then .error .notifierFailed else .ok ())

end Notifier

variable {ρ σ κ δ : Type}

/-- Turns an empty draft into the split document of a source. -/
def fill (m : Medium ρ σ κ δ) (settings : Settings ρ) (text : String) (handle : σ) :
    Work δ Unit := do
  Work.attempt (m.setVersion settings.version)
  Work.disturb (m.describe handle)
  let count ← splitDocument m handle
  Work.note (Log.debug "batch"
    s!"Split {count} pages of {text} into {m.pageCount (← Work.draft)} pages")
  let _ ← repaginate m settings.repagination
  return ()

/-- Makes the temporary buffer for a draft. -/
def makeBuffer : Run σ δ Path := do
  let buffer ← Run.onStore (Store.createBuffer ".pdf")
  Run.note (Log.debug "batch" s!"Created output on temporary buffer {buffer.text}")
  return buffer

/-- Saves a draft to a buffer and registers it. The buffer is removed if that fails. -/
def deposit (m : Medium ρ σ κ δ) (name : Except Failure String) (buffer : Path) (draft : δ) :
    Run σ δ String :=
  Run.orElseDo
    (do
      let (tree, notes) ← Run.ofExcept (m.send (← get).store.tree buffer draft).1
      modify fun s => { s with store := { s.store with tree, log := s.store.log ++ notes } }
      let name ← Run.ofExcept name
      Run.onStore (Store.add buffer name)
      return name)
    (modify fun s =>
      let tree := (s.store.tree.unlink buffer).toOption.getD s.store.tree
      { s with store := { s.store with tree } })

/-- Splits the source behind a handle into a draft and deposits it. -/
def build (m : Medium ρ σ κ δ) (settings : Settings ρ) (name : Except Failure String)
    (text : String) (handle : σ) (draft : δ) : StateM (State σ δ) (Except Failure String × δ) := do
  match ← Run.onBench (fill m settings text handle) draft with
  | (.error f, draft) => return (.error f, draft)
  | (.ok (), draft) =>
    match ← makeBuffer.run with
    | .error f => return (.error f, draft)
    | .ok buffer => return (← (deposit m name buffer draft).run, m.sent draft)

/-- Splits one source into a temporary buffer and registers it; returns the output name. -/
def processSource (m : Medium ρ σ κ δ) (namer : Namer) (settings : Settings ρ) (number : Int)
    (source : ρ) : Run σ δ String := do
  Run.note (Log.debug "batch" s!"Opening {m.text source}")
  Run.withSource m source fun handle => do
    Run.ofExcept (m.ensure .copyAndExtract handle)
    Run.withDraft m
      (build m settings (namer settings.pattern (m.name source) number) (m.text source) handle)

/-- Reports progress. -/
def report (notifier : Notifier) (progress : Progress) : Run σ δ Unit := do
  Run.record (.reported progress.current progress.total)
  let (notes, outcome) := notifier progress.current progress.total
  modify fun s => { s with store := { s.store with log := s.store.log ++ notes } }
  Run.ofExcept outcome

/-- Processes sources one after the other and reports each. -/
def processAll (m : Medium ρ σ κ δ) (namer : Namer) (notifier : Notifier) (settings : Settings ρ) :
    Int → List ρ → Progress → Run σ δ Progress
  | _, [], progress => return progress
  | number, source :: rest, progress => do
    let _ ← processSource m namer settings number source
    let progress ← Run.ofExcept progress.advance
    report notifier progress
    processAll m namer notifier settings (number + 1) rest progress

/-- Processes all sources and commits their outputs. -/
def processAndCommit (m : Medium ρ σ κ δ) (namer : Namer) (notifier : Notifier)
    (settings : Settings ρ) (output : Path) : Run σ δ Progress := do
  let start : Progress := ⟨settings.sources.length, 0⟩
  let progress ← processAll m namer notifier settings 1 settings.sources start
  Run.record .committing
  Run.onStore (Store.commit output)
  return progress

/-- Runs a batch. The registry starts empty; if anything fails, what is in it is discarded. -/
def run (m : Medium ρ σ κ δ) (namer : Namer) (notifier : Notifier) (settings : Settings ρ) :
    Run σ δ Progress := do
  let output ← Run.ofExcept settings.validate
  modify fun s => { s with store := { s.store with registry := .empty settings.overwrite } }
  let progress ←
    Run.orElseDo (processAndCommit m namer notifier settings output) (Run.onStore Store.discard)
  Run.note (Log.debug "batch" s!"Input documents split and written to {output.text}")
  return progress

end Folio.Batch
