import Folio.Proofs.FileTree.Rearranging
import Folio.Proofs.Output.Committing

/-!
# Stores whose trees list their entries in another order

No change of the store depends on the order in which the entries of its tree are listed. Each goes
the same way from stores that differ in nothing else (`Store.Rearranged`), and what comes out
differs in nothing else again. For a commit the buffers have to be files (`Store.abreast_commit`):
what the move of a directory comes to is not followed here.
-/

namespace Folio

open Step

/-- Two stores differ in the order in which their trees list entries. -/
structure Store.Rearranged (s s' : Store) : Prop where
  tree : s.tree.Rearranged s'.tree
  buffers : s'.buffers = s.buffers
  registry : s'.registry = s.registry
  log : s'.log = s.log

namespace Store

variable {s s' : Store}

theorem Rearranged.withTree (h : Rearranged s s') {t t' : FileTree} (ht : t.Rearranged t') :
    Rearranged { s with tree := t } { s' with tree := t' } :=
  ⟨ht, h.buffers, h.registry, h.log⟩

theorem alongside_note (r : Log.Record) : Alongside Rearranged (note r) (note r) :=
  .modify fun h => ⟨h.tree, h.buffers, h.registry, congrArg (· ++ [r]) h.log⟩

theorem alongside_onTree {f : FileTree → Except FileError FileTree}
    (hf : ∀ {t t'}, t.Rearranged t' → Matching FileTree.Rearranged (f t) (f t')) :
    Alongside Rearranged (onTree f) (onTree f) := by
  refine .get_bind fun {s s'} h => ?_
  have hchanged := hf h.tree
  generalize f s.tree = x at hchanged ⊢
  generalize f s'.tree = x' at hchanged ⊢
  cases hchanged with
  | ok htree => exact .modify fun h => h.withTree htree
  | error e => exact .throw _

/-- A buffer gets the same number in both stores. -/
theorem alongside_createBuffer (suffix : String) :
    Alongside Rearranged (createBuffer suffix) (createBuffer suffix) := by
  refine .get_bind fun {s s'} h => ?_
  have hnumber : freeNumber s'.tree suffix (s'.tree.entries.length + 1) s'.buffers =
      freeNumber s.tree suffix (s.tree.entries.length + 1) s.buffers := by
    rw [h.buffers]
    exact h.tree.samePlaces.nextNumber h.tree.entries.length_eq suffix s.buffers
  dsimp only
  rw [hnumber]
  refine .bind (.modify fun h => ⟨h.tree, rfl, h.registry, h.log⟩) fun _ => ?_
  exact (alongside_onTree fun h => h.createFresh _).bind fun _ => .pure _

theorem alongside_add (buffer : Path) (name : String) :
    Alongside Rearranged (add buffer name) (add buffer name) := by
  refine .get_bind fun {s s'} h => ?_
  rw [h.registry]
  cases s.registry.add buffer name with
  | error f => exact .throw f
  | ok registry => exact .modify fun h => ⟨h.tree, h.buffers, rfl, h.log⟩

end Store

end Folio
