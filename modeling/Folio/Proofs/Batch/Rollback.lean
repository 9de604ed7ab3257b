import Folio.Proofs.Batch.Course

/-!
# Rolling back

What a batch leaves behind when a source cannot be processed: nothing
(`run_of_source_error`). The buffers of the sources before it are removed, entry by entry, so
the tree is the one before the run and not only one with the same files.
-/

namespace Folio.Batch

variable {ρ σ κ δ : Type} {m : Medium ρ σ κ δ} {namer : Namer} {notifier : Notifier}
  {settings : Settings ρ} {output : Path} {store : Store}

/-- The failure of a source ends the work on all sources. -/
theorem run_processAndCommit_of_source_error {before after : List ρ} {source : ρ} {f : Failure}
    {s s' : State σ δ} (hsources : settings.sources = before ++ source :: after)
    (hbefore : (processAll m namer notifier settings 1 before ⟨settings.sources.length, 0⟩).run
      (begun settings store) = (.ok ⟨settings.sources.length, 0 + before.length⟩, s))
    (hsource : (processSource m namer settings (before.length + 1) source).run s = (.error f, s')) :
    (processAndCommit m namer notifier settings output).run (begun settings store) =
      (.error f, s') := by
  have hturn : (processAll m namer notifier settings (1 + before.length) (source :: after)
      ⟨settings.sources.length, 0 + before.length⟩).run s = (.error f, s') := by
    rw [Int.add_comm 1]
    exact Step.run_bind_error hsource
  unfold processAndCommit
  refine Step.run_bind_error ?_
  rw [congrArg (processAll m namer notifier settings 1) hsources, processAll_append]
  exact (Step.run_bind_ok hbefore).trans hturn

/-- **A source that fails leaves no trace.** If the loop over the sources before it comes to its end
and the source then fails, the run fails with the failure of the source. The tree is the one before
the run, nothing is registered any more, the sources before it have been reported, and those and the
source itself are all that was opened. Whether handles and drafts can be closed makes no
difference. -/
theorem run_of_source_error {before after : List ρ} {source : ρ} {f : Failure} {p : Progress}
    {s s' : State σ δ} (hsources : settings.sources = before ++ source :: after)
    (houtput : settings.output = some output)
    (hbefore : (processAll m namer notifier settings 1 before
      ⟨settings.sources.length, 0⟩).run (begun settings store) = (.ok p, s))
    (hsource : (processSource m namer settings (before.length + 1) source).run s = (.error f, s')) :
    ∃ s'', (run m namer notifier settings).run (.start store) = (.error f, s'') ∧
      s''.store.tree = store.tree ∧ s''.store.registry.outputs = [] ∧
      reports s''.trace = reportsFrom 0 settings.sources.length before.length ∧
      openings s''.trace = openings s.trace ++ (m.openSource s.store.tree source).toOption.toList ∧
      List.Forall₂ (fun source handle => ∃ t, m.openSource t source = .ok handle) before
        (openings s.trace) := by
  have hlength : (before.length : Int) < settings.sources.length := by
    rw [hsources, List.length_append, List.length_cons]
    omega
  obtain ⟨s₁, -, ⟨g, hrun, hall, hs₁, hreports⟩ | ⟨f', _, _, hrun, -⟩⟩ :=
    run_processAll_cases m namer notifier settings before 1
      (p := ⟨settings.sources.length, 0⟩) (agrees_begun settings store) (by dsimp only; omega)
  · rw [hbefore] at hrun
    cases hrun
    obtain ⟨s₂, hopened, hsource'⟩ := run_processSource (m := m) namer settings
      (before.length + 1) source hs₁
    obtain ⟨handles, hhandles, hforall⟩ := Ledger.handles_of_enterAll hall
    obtain ⟨files, hsound⟩ := (Ledger.sound_start store.tree store.buffers
      settings.overwrite).enterAll hall
    cases henter : g.enter m namer settings (before.length + 1) source with
    | ok g' =>
      rw [henter] at hsource'
      obtain ⟨name, hok, -⟩ := hsource'
      rw [hsource] at hok
      cases hok
    | error f' =>
      rw [henter] at hsource'
      obtain ⟨hfail, htree, hregistry⟩ := hsource'
      cases hsource.symm.trans hfail
      have hmem : source ∈ settings.sources := by simp [hsources]
      refine ⟨_, run_of_error (validate_eq_ok hmem houtput)
        (run_processAndCommit_of_source_error hsources hbefore hsource)
        (hsound.run_discard htree hregistry), rfl, rfl, ?_, ?_, ?_⟩
      · exact hopened.reports.trans hreports
      · rw [hs₁.tree]
        exact hopened.openings
      · rw [hs₁.openings, hhandles]
        exact hforall
  · rw [hbefore] at hrun
    cases hrun

/-- A batch of three rehearsed sources: the first cannot be closed, the second grants nothing, and
the third cannot be opened. -/
def faultySettings : Settings Rehearsal.Source where
  sources := [⟨"a", [⟨0, 0, 800, 600⟩], none, false, true⟩, ⟨"b", [], some [], false, false⟩,
    ⟨"c", [], none, true, false⟩]
  output := some ⟨.relative, ["out"]⟩
  pattern := "split_"
  overwrite := false
  version := none
  repagination := .lastFirst

/-- The second source of the batch fails, and nothing is left of the first. -/
theorem run_of_source_error_faulty :
    let m := Rehearsal.medium .smooth
    let namer := namerAt ⟨2024, 3, 9, 14, 5, 7, 0⟩
    ∃ f s, (run m namer .silent faultySettings).run (.start ⟨stage, 0, .empty false, []⟩) =
        (.error f, s) ∧ s.store.tree = stage := by
  intro m namer
  obtain ⟨p, hbefore⟩ := Step.run_eq_ok (x := processAll m namer .silent faultySettings 1
    [⟨"a", [⟨0, 0, 800, 600⟩], none, false, true⟩] ⟨faultySettings.sources.length, 0⟩)
    (s := begun faultySettings ⟨stage, 0, .empty false, []⟩) (by decide +kernel)
  obtain ⟨f, hsource⟩ := Step.run_eq_error (x := processSource m namer faultySettings
    (([⟨"a", [⟨0, 0, 800, 600⟩], none, false, true⟩] : List Rehearsal.Source).length + 1)
    ⟨"b", [], some [], false, false⟩)
    (s := ((processAll m namer .silent faultySettings 1
      [⟨"a", [⟨0, 0, 800, 600⟩], none, false, true⟩] ⟨faultySettings.sources.length, 0⟩).run
      (begun faultySettings ⟨stage, 0, .empty false, []⟩)).2) (by decide +kernel)
  have hsources : faultySettings.sources = [⟨"a", [⟨0, 0, 800, 600⟩], none, false, true⟩] ++
      ⟨"b", [], some [], false, false⟩ :: [⟨"c", [], none, true, false⟩] := rfl
  obtain ⟨s, hrun, htree, -⟩ := run_of_source_error hsources rfl hbefore hsource
  exact ⟨f, s, hrun, htree⟩

end Folio.Batch
