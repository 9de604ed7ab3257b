import Folio.Proofs.Batch.Course
import Folio.Proofs.Output.Sweeping

/-!
# Interrupted commits

A run that fails before its commit leaves nothing behind. One that fails in its commit removes the
buffers that are left, but it does not take back what it has moved: `run_error_made_iff` says
exactly when something stays. `run_error_made_iff_half` is a run in which it does: the first output
is moved, the second is refused, and the first remains.
-/

namespace Folio.Batch

open FileTree

variable {ρ σ κ δ : Type} {m : Medium ρ σ κ δ} {namer : Namer} {notifier : Notifier}
  {settings : Settings ρ} {output : Path} {store : Store} {p : Progress} {s s' : State σ δ}
  {g : Ledger σ} {files : List (Location × Content)} {f : Failure}

/-- What is found where after a commit that failed: nothing where a buffer was, elsewhere what was
moved there last, or else what was there when the directory had been made. -/
theorem AtCommit.get?_of_error (h : AtCommit m namer notifier settings store p s g files)
    (ht : store.tree.WellFormed) (hvalid : settings.validate = .ok output)
    (hrun : (run m namer notifier settings).run (.start store) = (.error f, s')) :
    s'.trace = s.trace ++ [.committing] ∧
      DirectoriesKept (s.store.tree.makeDirectories output).2 s'.store.tree ∧
      ∀ l, s'.store.tree.get? l =
        if l ∈ files.map Prod.fst then none
        else ((s.store.landings output).reverse.lookup l).elim
          ((s.store.tree.makeDirectories output).2.get? l) (some ∘ .file) := by
  have hfilled : Store.FilledAt s.store.tree s.store.registry.outputs (files.map Prod.fst) := by
    rw [h.agrees.tree, h.agrees.registry]
    exact h.sound.filledAt
  have hmakes := h.makes ht output
  obtain ⟨st, hcarried, ⟨hcommit, -⟩ | ⟨f', hcommit, hregistry⟩⟩ :=
    Store.run_commit output (h.wellFormed ht) hfilled h.sound.free.nodup
  · have hprocess := run_processAndCommit output h.processed
    rw [hcommit] at hprocess
    obtain ⟨log, hok⟩ := run_of_ok hvalid hprocess
    rw [hok] at hrun
    cases hrun
  · have hkept := hmakes.made.directoriesKept.trans hcarried.directoriesKept
    have hnames : List.Forall₂ (fun output a => st.tree.Names output.2 a) st.registry.outputs
        (files.map Prod.fst) := by
      rw [hregistry]
      exact hfilled.imp fun _ _ h => h.1.mono hkept
    have hdirs : ∀ a ∈ files.map Prod.fst, st.tree.isDirectory a = false := by
      intro a ha
      obtain ⟨c, hc⟩ := hfilled.exists_file a ha
      rw [hcarried.isDirectory_eq]
      exact not_isDirectory_of_file (hmakes.made.get?_of_some hc)
    obtain ⟨tree, log, hdiscard, hcwd, hget⟩ := Store.run_discard_of_names hnames hdirs
    have hprocess := run_processAndCommit output h.processed
    rw [hcommit] at hprocess
    rw [run_of_error hvalid hprocess hdiscard] at hrun
    cases hrun
    refine ⟨rfl, hcarried.directoriesKept.trans ⟨hcwd, fun l hl => ?_⟩, fun l => ?_⟩
    · have hmem : l ∉ files.map Prod.fst := fun hmem => by
        rw [hdirs l hmem] at hl
        cases hl
      rwa [isDirectory_iff, hget, if_neg hmem, ← isDirectory_iff]
    · rw [hget]
      split
      · rfl
      · next hl => exact hcarried.get?_of_notMem fun hmem => hl (List.mem_of_mem_take hmem)

/-- **What a failed run commits.** A run that fails before its commit leaves the tree as it was. One
that fails in its commit has only made directories on the way to the output directory, exactly if
each location that files were moved to, other than those of the buffers themselves, held before the
run what was moved there last. So nothing is committed if no file could be moved, and otherwise what
was moved remains: it is not taken back when a later move is refused. -/
theorem run_error_made_iff (ht : store.tree.WellFormed)
    (hrun : (run m namer notifier settings).run (.start store) = (.error f, s')) :
    (.committing ∉ s'.trace ∧ s'.store.tree = store.tree) ∨
      ∃ output p s, settings.output = some output ∧
        (processAll m namer notifier settings 1 settings.sources
          ⟨settings.sources.length, 0⟩).run (begun settings store) = (.ok p, s) ∧
        s'.trace = s.trace ++ [.committing] ∧
        (Made store.tree s'.store.tree output ↔
          ∀ l c, ¬ s.store.IsBuffer l → (s.store.landings output).reverse.lookup l = some c →
            store.tree.get? l = some (.file c)) := by
  rcases run_course m namer notifier settings store with
    ⟨f', s₁, hrun', hcommitting, htree, -⟩ | ⟨output, p, s, g, files, hvalid, hcommit⟩
  · rw [hrun'] at hrun
    cases hrun
    exact .inl ⟨hcommitting, htree⟩
  · right
    obtain ⟨htrace, hkept, hget⟩ := hcommit.get?_of_error ht hvalid hrun
    have hmade := (hcommit.makes ht output).made
    refine ⟨output, p, s, output_of_validate hvalid, hcommit.processed, htrace,
      fun h l c hl hlast => ?_, fun h => ⟨?_, fun l => ?_⟩⟩
    · rw [hcommit.isBuffer_iff] at hl
      have hfile := hget l
      rw [if_neg hl, hlast] at hfile
      rcases h.get?_eq l with heq | ⟨-, hdir, -⟩
      · exact heq.symm.trans hfile
      · rw [hdir] at hfile
        cases hfile
    · rw [hkept.cwd, hmade.cwd, hcommit.agrees.tree, hcommit.sound.tree]
      rfl
    · by_cases hl : l ∈ files.map Prod.fst
      · rw [hget, if_pos hl, (hcommit.sound.free.get?_none l hl).2]
        exact .inl rfl
      rw [hget, if_neg hl]
      cases hlast : (s.store.landings output).reverse.lookup l with
      | some c => exact .inl (h l c (hl ∘ hcommit.isBuffer_iff.1) hlast).symm
      | none =>
        rcases hcommit.get?_makeDirectories ht hl output with heq | ⟨hnone, hdir, hway⟩
        · exact .inl heq
        · exact .inr ⟨hnone, hdir, hway.mono hkept (isDirectory_iff.2 hdir)⟩

/-- A tree with a place for the first of two outputs. -/
def halfStage : FileTree where
  cwd := ["w"]
  entries := [(["w"], .directory), (["w", "tmp"], .directory), (["w", "out"], .directory),
    (["w", "out", "1"], .directory)]

/-- A batch of two rehearsed sources, each with a directory of its own to go to. -/
def halfSettings : Settings Rehearsal.Source where
  sources := [⟨"a", [⟨0, 0, 800, 600⟩], none, false, false⟩,
    ⟨"b", [⟨0, 0, 600, 800⟩], none, false, false⟩]
  output := some ⟨.relative, ["out"]⟩
  pattern := "[FILENUMBER]/x"
  overwrite := false
  version := none
  repagination := .none

/-- The second output has no directory to go to, and the first one is left where it was moved. -/
theorem run_error_made_iff_half :
    let m := Rehearsal.medium .smooth
    let namer := namerAt ⟨2024, 3, 9, 14, 5, 7, 0⟩
    ∃ f s, (run m namer .silent halfSettings).run (.start ⟨halfStage, 0, .empty false, []⟩) =
        (.error f, s) ∧
      ¬ Made halfStage s.store.tree ⟨.relative, ["out"]⟩ ∧
      ∃ p s, (processAll m namer .silent halfSettings 1 halfSettings.sources ⟨2, 0⟩).run
          (begun halfSettings ⟨halfStage, 0, .empty false, []⟩) = (.ok p, s) ∧
        ∃ l c, (s.store.landings ⟨.relative, ["out"]⟩).reverse.lookup l = some c ∧
          halfStage.get? l ≠ some (.file c) := by
  intro m namer
  obtain ⟨f, hrun⟩ := Step.run_eq_error (x := run m namer .silent halfSettings)
    (s := .start ⟨halfStage, 0, .empty false, []⟩) (by decide +kernel)
  have hstays : (((run m namer .silent halfSettings).run
      (.start ⟨halfStage, 0, .empty false, []⟩)).2.store.tree.get?
        ["w", "out", "1", "x.pdf"]).isSome = true := by
    decide +kernel
  have hfile : ((run m namer .silent halfSettings).run
      (.start ⟨halfStage, 0, .empty false, []⟩)).2.store.tree.isDirectory
        ["w", "out", "1", "x.pdf"] = false := by
    decide +kernel
  have hnot : ¬ Made halfStage ((run m namer .silent halfSettings).run
      (.start ⟨halfStage, 0, .empty false, []⟩)).2.store.tree ⟨.relative, ["out"]⟩ := by
    intro hmade
    rcases hmade.get?_eq ["w", "out", "1", "x.pdf"] with heq | ⟨-, hdir, -⟩
    · rw [heq] at hstays
      cases hstays
    · rw [isDirectory_iff.2 hdir] at hfile
      cases hfile
  refine ⟨f, _, hrun, hnot, ?_⟩
  rcases run_error_made_iff (.of_entries rfl (by decide)) hrun with
    ⟨-, htree⟩ | ⟨output, p, s, houtput, hprocess, -, hiff⟩
  · rw [htree] at hstays
    cases hstays
  · cases houtput
    have hex := mt hiff.2 hnot
    simp only [not_forall] at hex
    obtain ⟨l, c, -, hlast, hne⟩ := hex
    exact ⟨p, s, hprocess, l, c, hlast, hne⟩

end Folio.Batch
