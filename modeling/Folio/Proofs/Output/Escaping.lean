import Folio.Proofs.FileTree.Passable
import Folio.Proofs.Naming.Characters
import Folio.Proofs.Output.Committing
import Folio.Proofs.Output.Sweeping

/-!
# What gets past a commit

A move that is refused is told as a failure to save, but making the directory and looking for
targets are not guarded: an error of the file system there leaves the commit as it stands.
`commit_unhandled` says that nothing else does, as long as names and buffers can be handed to the
file system, and `commit_handled_iff` when that is: no file is on the way to the directory, and no
path is too long. Discarding never fails then (`run_discard_ok`).
-/

namespace Folio.Store

open FileTree

variable {directory : Path} {s s' : Store} {f : Failure}

/-- An error on files is never one of splitting. -/
theorem isSplitting_file (e : FileError) : (Failure.file e).isSplitting = false := by
  cases e <;> rfl

/-- What is none of splitting is no conflict of outputs and no failure to save. -/
theorem kind_ne_of_isSplitting (h : f.isSplitting = false) :
    f.kind ≠ .outputConflict ∧ f.kind ≠ .save := by
  constructor <;>
  · intro hkind
    rw [Failure.isSplitting, hkind] at h
    cases h

/-! ## Discarding -/

/-- A registry whose buffers can be handed to the file system is discarded. -/
theorem run_discard_ok (hbuffers : ∀ output ∈ s.registry.outputs, output.2.hasNul = false) :
    ∃ s', discard.run s = (.ok (), s') := by
  obtain ⟨tree, log, hrun, -⟩ := run_discard_swept hbuffers
  exact ⟨_, hrun⟩

/-! ## Committing -/

/-- Moves are refused as failures to save. -/
theorem kind_of_run_moveAll {outputs : List (String × Path)}
    (hbuffers : ∀ output ∈ outputs, output.2.hasNul = false)
    (htargets : ∀ output ∈ outputs, (Registry.target directory output.1).hasNul = false)
    (h : (moveAll directory outputs).run s = (.error f, s')) : f.kind = .save := by
  obtain ⟨output, houtput, t, e, hmove, rfl⟩ := exists_refused_of_run_moveAll h
  cases e with
  | embeddedNul =>
    have hasked := move_ne_embeddedNul (t := t) (hbuffers output houtput) (htargets output houtput)
    exact absurd hmove hasked
  | system | systemPair | destinationExists | intoItself | tooDeep => rfl

/-- Why a commit ends with an error of the file system as it stands: its directory cannot be made,
or it cannot be found out whether a target exists. -/
def Unhandled (t : FileTree) (r : Registry) (directory : Path) (e : FileError) : Prop :=
  (t.makeDirectories directory).1 = .error e ∨
    (t.makeDirectories directory).1 = .ok () ∧ r.overwrite = false ∧
      existingTargets (t.makeDirectories directory).2 directory r.names = .error e

/-- A commit whose directory cannot be made ends there. -/
theorem run_commit_of_unmade {e : FileError} (h : (s.tree.makeDirectories directory).1 = .error e) :
    (commit directory).run s =
      (.error (.file e), { s with tree := (s.tree.makeDirectories directory).2 }) := by
  rw [commit, Step.run_bind_ok (run_halfway _ s), h]
  rfl

/-- A commit that may not overwrite ends where it looks for targets, unless it finds that there is
none. -/
theorem run_commit_of_targets (hmade : (s.tree.makeDirectories directory).1 = .ok ())
    (hoverwrite : s.registry.overwrite = false) :
    match existingTargets (s.tree.makeDirectories directory).2 directory s.registry.names with
    | .error e => (commit directory).run s =
        (.error (.file e), { s with tree := (s.tree.makeDirectories directory).2 })
    | .ok [] => Cleared directory s
    | .ok targets => (commit directory).run s = (.error (.existingFiles (targets.map Path.text)),
        { s with tree := (s.tree.makeDirectories directory).2 }) := by
  have hrun : ∀ g, (refuseExisting directory).run
      { s with tree := (s.tree.makeDirectories directory).2 } =
        (.error g, { s with tree := (s.tree.makeDirectories directory).2 }) →
      (commit directory).run s =
        (.error g, { s with tree := (s.tree.makeDirectories directory).2 }) := fun g hg => by
    rw [commit, Step.run_bind_ok (run_halfway _ s), hmade]
    dsimp only
    rw [Step.run_bind_ok (Step.run_get _), if_pos hoverwrite, Step.run_bind_error hg]
  split
  · next e he => exact hrun _ (by rw [refuseExisting, Step.run_bind_ok (Step.run_get _), he]; rfl)
  · next he => exact ⟨hmade, fun _ => he⟩
  · next targets hne he =>
    refine hrun _ ?_
    rw [refuseExisting, Step.run_bind_ok (Step.run_get _), he]
    cases targets with
    | nil => exact absurd rfl hne
    | cons => rfl

/-- Such an error ends the commit. -/
theorem Unhandled.run_commit {e : FileError} (h : Unhandled s.tree s.registry directory e) :
    ((commit directory).run s).1 = .error (.file e) := by
  rcases h with hmade | ⟨hmade, hoverwrite, htargets⟩
  · rw [run_commit_of_unmade hmade]
  · have hrun := run_commit_of_targets hmade hoverwrite
    rw [htargets] at hrun
    rw [hrun]

/-- How a commit fails: with existing files or with a move that is refused, or as it stands. -/
theorem run_commit_error (hnames : ∀ name ∈ s.registry.names, Char.ofNat 0 ∉ name.toList)
    (hbuffers : ∀ output ∈ s.registry.outputs, output.2.hasNul = false)
    (h : (commit directory).run s = (.error f, s')) :
    s'.registry = s.registry ∧ (f.kind = .outputConflict ∨ f.kind = .save ∨
      ∃ e, f = .file e ∧ Unhandled s.tree s.registry directory e) := by
  have hregistry := registry_commit directory s
  rw [h] at hregistry
  refine ⟨hregistry, ?_⟩
  cases hmade : (s.tree.makeDirectories directory).1 with
  | error e =>
    rw [run_commit_of_unmade hmade] at h
    cases h
    exact .inr (.inr ⟨e, rfl, .inl hmade⟩)
  | ok u =>
    by_cases hcleared : Cleared directory s
    · have htargets : ∀ output ∈ s.registry.outputs,
          (Registry.target directory output.1).hasNul = false := fun output houtput =>
        Registry.hasNul_target (hasNul_of_makeDirectories hmade)
          (hnames output.1 (List.mem_map_of_mem houtput))
      rw [run_commit_of_cleared hcleared] at h
      rcases hmoves : (moveAll directory s.registry.outputs).run
        { s with tree := (s.tree.makeDirectories directory).2 } with ⟨g | ⟨⟨⟩⟩, s₁⟩
      · rw [Step.run_bind_error hmoves] at h
        cases h
        exact .inr (.inl (kind_of_run_moveAll hbuffers htargets hmoves))
      · rw [Step.run_bind_ok hmoves] at h
        cases h
    · have hoverwrite : s.registry.overwrite = false := by
        by_contra hgo
        exact hcleared ⟨hmade, fun h => absurd h hgo⟩
      have hrun := run_commit_of_targets hmade hoverwrite
      split at hrun
      · next e he =>
        rw [hrun] at h
        cases h
        exact .inr (.inr ⟨e, rfl, .inr ⟨hmade, hoverwrite, he⟩⟩)
      · exact absurd hrun hcleared
      · rw [hrun] at h
        cases h
        exact .inl rfl

/-- **What gets past a commit.** If names and buffers can be handed to the file system, a commit
that fails tells of existing files or of an output that cannot be written, except for an error of
the file system in making the directory or in looking for a target. -/
theorem commit_unhandled (hnames : ∀ name ∈ s.registry.names, Char.ofNat 0 ∉ name.toList)
    (hbuffers : ∀ output ∈ s.registry.outputs, output.2.hasNul = false) :
    ((commit directory).run s).1 = .error f ∧ f.kind ≠ .outputConflict ∧ f.kind ≠ .save ↔
      ∃ e, f = .file e ∧ Unhandled s.tree s.registry directory e := by
  constructor
  · rintro ⟨h, hconflict, hsave⟩
    have hrun : (commit directory).run s = (.error f, ((commit directory).run s).2) :=
      Prod.ext h rfl
    obtain ⟨-, hkind | hkind | hunhandled⟩ := run_commit_error hnames hbuffers hrun
    · exact absurd hkind hconflict
    · exact absurd hkind hsave
    · exact hunhandled
  · rintro ⟨e, rfl, h⟩
    refine ⟨h.run_commit, ?_, ?_⟩ <;> cases e <;> simp [Failure.kind, Failure.kindOfFile]

/-! ## When nothing gets past -/

/-- Looking for targets is refused just if one of them is too long a path. -/
theorem existingTargets_error_iff {t : FileTree} :
    ∀ {names : List String}, (∀ name ∈ names, (Registry.target directory name).hasNul = false) →
      ((∃ e, existingTargets t directory names = .error e) ↔
        ∃ name ∈ names, t.locate (Registry.target directory name) = .error .nameTooLong)
  | [], _ => by simp [existingTargets]
  | name :: names, hnul => by
    rw [List.forall_mem_cons] at hnul
    rw [List.exists_mem_cons_iff, ← existingTargets_error_iff hnul.2, existingTargets]
    cases hfound : t.pathExists (Registry.target directory name) with
    | error e =>
      have hlong := (pathExists_eq_error.1 hfound).2.1
      simp [hlong]
    | ok found =>
      have hshort : t.locate (Registry.target directory name) ≠ .error .nameTooLong := by
        intro hlong
        have hrefused := pathExists_eq_error.2 ⟨hnul.1, hlong, rfl⟩
        cases hfound.symm.trans hrefused
      cases existingTargets t directory names <;> simp [hshort, Except.map]

/-- Nothing gets past a commit whose directory can be made, if none of the targets that it looks for
is too long a path. -/
theorem not_exists_unhandled_iff {t : FileTree} {r : Registry}
    (hnames : ∀ name ∈ r.names, Char.ofNat 0 ∉ name.toList) :
    (¬ ∃ e, Unhandled t r directory e) ↔
      (t.makeDirectories directory).1 = .ok () ∧ (r.overwrite = false → ∀ name ∈ r.names,
        (t.makeDirectories directory).2.locate (Registry.target directory name) ≠
          .error .nameTooLong) := by
  cases hmade : (t.makeDirectories directory).1 with
  | error e => exact iff_of_false (fun h => h ⟨e, .inl hmade⟩) nofun
  | ok u =>
    have htargets : ∀ name ∈ r.names, (Registry.target directory name).hasNul = false :=
      fun name hname => Registry.hasNul_target (hasNul_of_makeDirectories hmade) (hnames name hname)
    have hiff : (∃ e, Unhandled t r directory e) ↔ r.overwrite = false ∧
        ∃ e, existingTargets (t.makeDirectories directory).2 directory r.names = .error e := by
      simp [Unhandled, hmade]
    rw [hiff, existingTargets_error_iff htargets]
    simp

/-- Nothing is refused that a commit does not guard: the path of its directory is passable, and
where it looks for targets, none of them is too long a path. -/
structure Unhindered (s : Store) (directory : Path) : Prop where
  passable : s.tree.Passable directory
  targets : s.registry.overwrite = false → ∀ name ∈ s.registry.names,
    (s.tree.makeDirectories directory).2.locate (Registry.target directory name) ≠
      .error .nameTooLong

/-- **When nothing gets past a commit.** In a well-formed tree a commit is unhindered exactly if it
can only fail with existing files or with an output that cannot be written. -/
theorem commit_handled_iff (ht : s.tree.WellFormed)
    (hdepth : directory.parts.length < depthLimit)
    (hnames : ∀ name ∈ s.registry.names, Char.ofNat 0 ∉ name.toList)
    (hbuffers : ∀ output ∈ s.registry.outputs, output.2.hasNul = false) :
    (∀ f, ((commit directory).run s).1 = .error f → f.kind = .outputConflict ∨ f.kind = .save) ↔
      Unhindered s directory := by
  have hunhindered : Unhindered s directory ↔ ¬ ∃ e, Unhandled s.tree s.registry directory e := by
    rw [not_exists_unhandled_iff hnames, makeDirectories_eq_ok_iff ht hdepth]
    exact ⟨fun h => ⟨h.passable, h.targets⟩, fun h => ⟨h.1, h.2⟩⟩
  rw [hunhindered]
  constructor
  · rintro hhandled ⟨e, h⟩
    obtain ⟨hfailed, hconflict, hsave⟩ := (commit_unhandled hnames hbuffers).2 ⟨e, rfl, h⟩
    exact (hhandled _ hfailed).elim hconflict hsave
  · intro hnone f hfailed
    by_contra hkind
    obtain ⟨e, -, h⟩ := (commit_unhandled hnames hbuffers).1 ⟨hfailed, not_or.1 hkind⟩
    exact hnone ⟨e, h⟩

end Folio.Store
