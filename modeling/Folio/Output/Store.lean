import Folio.FileTree.Move
import Folio.Log.Record
import Folio.Output.Registry

/-!
# The store

The store is the file tree together with the registry of outputs, the number of the last temporary
buffer and what has been noted so far. Outputs are written to buffers first. `commit` moves all of
them into a directory, after it has looked at every target; `discard` removes them.
-/

namespace Folio

/-- The file tree, the registered outputs, and what has been noted. -/
structure Store where
  tree : FileTree
  /-- The number of the last temporary buffer. -/
  buffers : Nat
  registry : Registry
  log : List Log.Record

/-- A change of the store that may fail; the store is kept as the change leaves it. -/
abbrev Store.Action (α : Type) := ExceptT Failure (StateM Store) α

/-- The text of the path of the temporary buffer with a number. -/
def Buffer.text (number : Nat) (suffix : String) : String := s!"tmp/spreadsplit_b{number}{suffix}"

namespace Store

/-- Notes something. -/
def note (r : Log.Record) : Action Unit := modify fun s => { s with log := s.log ++ [r] }

/-- An operation on the file tree that changes nothing when it fails. -/
def onTree (f : FileTree → Except FileError FileTree) : Action Unit := do
  match f (← get).tree with
  | .ok tree => modify fun s => { s with tree }
  | .error e => throw (.file e)

/-- An operation on the file tree that may stop halfway. -/
def halfway (f : FileTree → Except FileError Unit × FileTree) :
    Action (Except FileError Unit) := do
  let (outcome, tree) := f (← get).tree
  modify fun s => { s with tree }
  return outcome

/-! ## Temporary buffers -/

/-- The first number behind `n` whose buffer does not exist; at most `limit` numbers are tried. -/
def freeNumber (t : FileTree) (suffix : String) : Nat → Nat → Nat
  | 0, n => n + 1
  | limit + 1, n =>
    match t.freshSpot (Buffer.text (n + 1) suffix) with
    | .error .alreadyExists => freeNumber t suffix limit (n + 1)
    | _ => n + 1

/-- Makes an empty temporary buffer. -/
def createBuffer (suffix : String) : Action Path := do
  let s ← get
  let number := freeNumber s.tree suffix (s.tree.entries.length + 1) s.buffers
  modify fun s => { s with buffers := number }
  onTree fun t => t.createFresh (Buffer.text number suffix)
  return .ofText (Buffer.text number suffix)

/-- Registers a buffer under a name. -/
def add (buffer : Path) (name : String) : Action Unit := do
  match (← get).registry.add buffer name with
  | .ok registry => modify fun s => { s with registry }
  | .error f => throw f

/-! ## Discarding -/

/-- Removes the buffers of a list of outputs. A buffer that is missing is as good as removed, and
one that cannot be removed is noted. -/
def discardAll : List (String × Path) → Action Unit
  | [] => pure ()
  | (_, buffer) :: rest => do
    match (← get).tree.unlink buffer with
    | .ok tree => modify fun s => { s with tree }
    | .error (.system .noEntry _) => pure ()
    | .error .embeddedNul => throw (.file .embeddedNul)
    | .error e =>
      note (Log.warning "output"
        s!"Unable to delete temporary buffer {buffer.text}: {e.message}")
    discardAll rest

/-- Removes every registered buffer and forgets all outputs. -/
def discard : Action Unit := do
  discardAll (← get).registry.outputs
  modify fun s => { s with registry := s.registry.clear }

/-! ## Committing -/

/-- The targets that lead to something, in the order of the outputs. -/
def existingTargets (t : FileTree) (directory : Path) : List String → Except FileError (List Path)
  | [] => .ok []
  | name :: names =>
    match t.pathExists (Registry.target directory name) with
    | .error e => .error e
    | .ok found =>
      (existingTargets t directory names).map fun rest =>
        if found then Registry.target directory name :: rest else rest

/-- Refuses to go on if a target exists. -/
def refuseExisting (directory : Path) : Action Unit := do
  let s ← get
  match existingTargets s.tree directory s.registry.names with
  | .error e => throw (.file e)
  | .ok [] => pure ()
  | .ok targets => throw (.existingFiles (targets.map Path.text))

/-- Moves the buffers of a list of outputs to their targets, up to the first that cannot be
moved. -/
def moveAll (directory : Path) : List (String × Path) → Action Unit
  | [] => pure ()
  | (name, buffer) :: rest => do
    let target := Registry.target directory name
    match ← halfway fun t => t.move buffer target with
    | .ok () => note (Log.info "output" s!"Wrote {target.text}")
    | .error .embeddedNul => throw (.file .embeddedNul)
    | .error e => throw (.outputUnwritten target.text e)
    moveAll directory rest

/-- Moves every registered buffer into a directory, which is made if it is missing, and forgets all
outputs. Unless they may be replaced, no target may exist when the first buffer is moved. -/
def commit (directory : Path) : Action Unit := do
  match ← halfway fun t => t.makeDirectories directory with
  | .ok () => pure ()
  | .error e => throw (.file e)
  if (← get).registry.overwrite = false then refuseExisting directory
  moveAll directory (← get).registry.outputs
  modify fun s => { s with registry := s.registry.clear }

end Store

end Folio
