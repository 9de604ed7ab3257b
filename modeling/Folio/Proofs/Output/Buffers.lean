import Mathlib.Data.List.Forall2
import Folio.Output.Store
import Folio.Proofs.Effects
import Folio.Proofs.FileTree.Adding

/-!
# Temporary buffers

A buffer that is made is a file where nothing was (`createFresh_ok`). The buffers of a list of
outputs, `BuffersAt`, lie behind the entries of the tree that they were added to, and discarding
them gives that tree back (`run_discardAll`).
-/

namespace Folio

open FileTree

/-- A new file lies where nothing was. -/
theorem FileTree.createFresh_ok {t t' : FileTree} {text : String}
    (h : t.createFresh text = .ok t') :
    ∃ l, t.Names (.ofText text) l ∧ t.get? l = none ∧ t' = t.withFiles [(l, .text "")] := by
  unfold createFresh at h
  split at h
  · cases h
  next hnul =>
  split at h
  · next l hl =>
    cases h
    obtain ⟨d, n, hspot, hfree, rfl⟩ := freshSpot_eq_ok hl
    have hnone : t.get? (d ++ [n]) = none := by simpa [has] using hfree
    exact ⟨_, ⟨by simpa using hnul, d, n, hspot, rfl⟩, hnone, put_eq_withFiles (by simp) hnone⟩
  · cases h

namespace Store

variable {α β : Type}

@[simp] theorem run_note (r : Log.Record) (s : Store) :
    (note r).run s = (.ok (), { s with log := s.log ++ [r] }) := rfl

theorem run_onTree (f : FileTree → Except FileError FileTree) (s : Store) :
    (onTree f).run s =
      match f s.tree with
      | .ok tree => (.ok (), { s with tree })
      | .error e => (.error (.file e), s) := by
  rw [onTree, Step.run_bind_ok (Step.run_get s)]
  cases f s.tree <;> rfl

@[simp] theorem run_halfway (f : FileTree → Except FileError Unit × FileTree) (s : Store) :
    (halfway f).run s = (.ok (f s.tree).1, { s with tree := (f s.tree).2 }) := rfl

theorem run_add (buffer : Path) (name : String) (s : Store) :
    (add buffer name).run s =
      match s.registry.add buffer name with
      | .ok registry => (.ok (), { s with registry })
      | .error f => (.error f, s) := by
  rw [add, Step.run_bind_ok (Step.run_get s)]
  cases s.registry.add buffer name <;> rfl

/-- The number that the next buffer gets. -/
def nextNumber (t : FileTree) (suffix : String) (buffers : Nat) : Nat :=
  freeNumber t suffix (t.entries.length + 1) buffers

/-- A number is used up whether or not the buffer can be made. -/
theorem run_createBuffer (suffix : String) (s : Store) :
    (createBuffer suffix).run s =
      match s.tree.createFresh (Buffer.text (nextNumber s.tree suffix s.buffers) suffix) with
      | .ok tree =>
        (.ok (.ofText (Buffer.text (nextNumber s.tree suffix s.buffers) suffix)),
          { s with tree, buffers := nextNumber s.tree suffix s.buffers })
      | .error e =>
        (.error (.file e), { s with buffers := nextNumber s.tree suffix s.buffers }) := by
  rw [createBuffer, Step.run_bind_ok (Step.run_get s), Step.run_bind_ok (Step.run_modify _ s),
    Step.run_bind, run_onTree]
  unfold nextNumber
  cases s.tree.createFresh _ <;> rfl

/-! ## Discarding -/

/-- The locations that the buffers of a list of outputs have, told by their paths. -/
theorem mem_of_names {t : FileTree} {outputs : List (String × Path)} {as : List Location}
    (h : List.Forall₂ (fun output a => t.Names output.2 a) outputs as) {l : Location} :
    l ∈ as ↔ ∃ output ∈ outputs, t.Names output.2 l := by
  induction h with
  | nil => simp
  | @cons output a outputs as hnames _ ih =>
    rw [List.mem_cons, ih, List.exists_mem_cons_iff]
    exact or_congr_left ⟨fun h => h ▸ hnames, hnames.unique⟩

/-- Is a location that of a registered buffer? -/
def IsBuffer (s : Store) (l : Location) : Prop :=
  ∃ output ∈ s.registry.outputs, s.tree.Names output.2 l

/-- The buffers of a list of outputs, each named by its path in a tree without the buffers. -/
def BuffersAt (t : FileTree) (outputs : List (String × Path)) (files : List (Location × Content)) :
    Prop :=
  List.Forall₂ (fun output file => t.Names output.2 file.1) outputs files

/-- **Discarded buffers leave no trace.** Buffers are removed in the order in which they were added;
each is found, as removing the ones before it takes no directory away. -/
theorem run_discardAll {t : FileTree} {outputs : List (String × Path)}
    {files : List (Location × Content)} (hbuffers : BuffersAt t outputs files) :
    ∀ {s : Store}, t.Free files → s.tree = t.withFiles files →
      (discardAll outputs).run s = (.ok (), { s with tree := t }) := by
  induction hbuffers with
  | nil =>
    intro s _ htree
    rw [withFiles_nil] at htree
    subst htree
    rfl
  | @cons output file outputs files hnames _ ih =>
    intro s hfree htree
    obtain ⟨l, c⟩ := file
    obtain ⟨hne, hnone⟩ := hfree.get?_none l List.mem_cons_self
    have hfile : (t.withFiles ((l, c) :: files)).get? l = some (.file c) :=
      hfree.get?_of_mem List.mem_cons_self
    have hunlink : s.tree.unlink output.2 = .ok (t.withFiles files) := by
      rw [htree, (hnames.mono hfree.directoriesKept).unlink hfile,
        erase_withFiles_cons hne hnone (List.nodup_cons.1 hfree.nodup).1]
    rw [discardAll, Step.run_bind_ok (Step.run_get s), hunlink]
    dsimp only
    rw [Step.run_bind_ok (Step.run_modify _ s), ih (hfree.sublist (List.sublist_cons_self _ _)) rfl]

/-- Discarding all outputs removes their buffers and forgets them. -/
theorem run_discard {t : FileTree} {files : List (Location × Content)} {s : Store}
    (hbuffers : BuffersAt t s.registry.outputs files) (hfree : t.Free files)
    (htree : s.tree = t.withFiles files) :
    discard.run s = (.ok (), { s with tree := t, registry := s.registry.clear }) := by
  rw [discard, Step.run_bind_ok (Step.run_get s),
    Step.run_bind_ok (run_discardAll hbuffers hfree htree)]
  rfl

end Store

end Folio
