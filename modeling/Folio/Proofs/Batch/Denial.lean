import Folio.Proofs.Batch.Rollback
import Folio.Proofs.Document.Opening

/-!
# Sources that may not be copied

A source that does not grant copying is opened, asked for its permission and closed, and nothing
else is done with it (`run_processSource_of_denied`). So a batch with such a source ends alike
whatever the source contains and whatever comes behind it (`run_alike_of_denied`): what shows of the
run is settled by the sources before it and by its name. That its pages and its description are not
looked at is `run_of_reading`: a run is the same in every medium that reads the sources that may be
copied in the same way.
-/

namespace Folio

variable {ρ σ κ δ τ α : Type}

open FileTree

namespace Batch

/-! ## What shows of a run -/

/-- The event with something else in the place of the handle. -/
def Event.mapSource (f : σ → τ) : Event σ δ → Event τ δ
  | .opened number handle => .opened number (f handle)
  | .closedSource number handle => .closedSource number (f handle)
  | .created number draft => .created number draft
  | .closedDraft number draft => .closedDraft number draft
  | .reported current total => .reported current total
  | .committing => .committing

/-- Names are all that the handles of a trace are known by. -/
def shown (m : Medium ρ σ κ δ) (trace : List (Event σ δ)) : List (Event String δ) :=
  trace.map (Event.mapSource m.sourceName)

theorem shown_append (m : Medium ρ σ κ δ) (trace trace' : List (Event σ δ)) :
    shown m (trace ++ trace') = shown m trace ++ shown m trace' := List.map_append

/-- What was reported shows. -/
theorem reports_shown (m : Medium ρ σ κ δ) (trace : List (Event σ δ)) :
    reports (shown m trace) = reports trace := by
  rw [shown, reports, List.filterMap_map]
  refine List.filterMap_congr fun e _ => ?_
  cases e <;> rfl

/-! ## Denied sources -/

variable {m : Medium ρ σ κ δ} {namer : Namer} {notifier : Notifier} {settings : Settings ρ}
  {output : Path} {store : Store} {before after after' : List ρ} {source source' : ρ}

/-- A source that is denied is opened and closed, and that is all. -/
theorem run_processSource_of_denied (namer : Namer) (settings : Settings ρ) {handle : σ}
    {f : Failure} {s : State σ δ} (hopen : m.openSource s.store.tree source = .ok handle)
    (hensure : m.ensure .copyAndExtract handle = .error f) (number : Int) :
    ∃ s', (processSource m namer settings number source).run s = (.error f, s') ∧
      s'.store.tree = s.store.tree ∧ s'.store.registry = s.store.registry ∧
      s'.trace = s.trace ++
        [.opened (s.opened + 1) handle, .closedSource (s.opened + 1) handle] := by
  rw [processSource, Step.run_bind_ok (Run.run_note _ s)]
  have hrefused : ∀ st : State σ δ, (do
      Run.ofExcept (m.ensure .copyAndExtract handle)
      Run.withDraft m (build m settings (namer settings.pattern (m.name source) number)
        (m.text source) handle) : Run σ δ String).run st = (.error f, st) := fun st => by
    rw [hensure]
    exact Step.run_bind_error (Run.run_ofExcept (.error f) st)
  refine ⟨_, Run.run_withSource_ok hopen (hrefused _), rfl, rfl, ?_⟩
  simp [Run.afterClose, Run.afterOpen]

/-- The loop over sources does not depend on what other sources there are. -/
theorem processAll_with_sources (sources : List ρ) :
    ∀ (rest : List ρ) (number : Int) (p : Progress),
      (processAll m namer notifier { settings with sources } number rest p : Run σ δ Progress) =
        processAll m namer notifier settings number rest p
  | [], _, _ => rfl
  | source :: rest, number, p => by
    simp only [processAll, processAll_with_sources sources rest]
    rfl

/-! ## Media that read alike -/

section
variable {pages : σ → List (Except Failure (SourcePage κ))}
  {describe : σ → δ → Except Failure Unit × δ} {handle : σ}

theorem splitPages_of_reading :
    ∀ readable : List (Except Failure (SourcePage κ)),
      (splitPages { m with pages, describe } readable : Work δ Unit) = splitPages m readable
  | [] => rfl
  | page :: rest => by
    simp only [splitPages, splitPages_of_reading rest]
    rfl

theorem replay_of_reading :
    ∀ positions : List Nat,
      (replay { m with pages, describe } positions : Work δ Unit) = replay m positions
  | [] => rfl
  | p :: ps => by simp only [replay, replay_of_reading ps]

theorem repaginate_of_reading (mode : Repagination) :
    (repaginate { m with pages, describe } mode : Work δ (List Nat)) = repaginate m mode := by
  cases mode with
  | none => rfl
  | lastFirst => simp only [repaginate, replay_of_reading]

/-- A draft is built alike from a handle that is read alike. -/
theorem build_of_reading (hpages : pages handle = m.pages handle)
    (hdescribe : describe handle = m.describe handle) (name : Except Failure String)
    (text : String) :
    build { m with pages, describe } settings name text handle =
      build m settings name text handle := by
  have hfill : fill { m with pages, describe } settings text handle =
      fill m settings text handle := by
    simp only [fill, splitDocument, splitPages_of_reading, repaginate_of_reading, hpages, hdescribe]
  funext draft
  unfold build
  rw [hfill]
  rfl

theorem withSource_of_reading (source : ρ) (body : σ → Run σ δ α) :
    Run.withSource { m with pages, describe } source body = Run.withSource m source body := rfl

theorem withDraft_of_reading (body : δ → StateM (State σ δ) (Except Failure α × δ)) :
    Run.withDraft { m with pages, describe } body = Run.withDraft m body := rfl

/-- Nothing follows an outcome that is a failure. -/
theorem Run.ofExcept_error_bind (f : Failure) (next : α → Run σ δ τ) :
    (Run.ofExcept (.error f) >>= next) = throw f := rfl

/-- A source that may not be copied is processed alike, however it reads. -/
theorem processSource_of_reading
    (h : ∀ handle, m.ensure .copyAndExtract handle = .ok () →
      pages handle = m.pages handle ∧ describe handle = m.describe handle)
    (number : Int) (source : ρ) :
    (processSource { m with pages, describe } namer settings number source : Run σ δ String) =
      processSource m namer settings number source := by
  have hbody : ∀ (name : Except Failure String) (text : String) (handle : σ),
      (Run.ofExcept (m.ensure .copyAndExtract handle) >>= fun _ =>
        Run.withDraft m (build { m with pages, describe } settings name text handle) :
          Run σ δ String) =
        (Run.ofExcept (m.ensure .copyAndExtract handle) >>= fun _ =>
          Run.withDraft m (build m settings name text handle)) := by
    intro name text handle
    cases hensure : m.ensure .copyAndExtract handle with
    | error f => rw [Run.ofExcept_error_bind, Run.ofExcept_error_bind]
    | ok u =>
      obtain ⟨hpages, hdescribe⟩ := h handle hensure
      rw [build_of_reading hpages hdescribe]
  simp only [processSource, withSource_of_reading, withDraft_of_reading, hbody]

theorem processAll_of_reading
    (h : ∀ handle, m.ensure .copyAndExtract handle = .ok () →
      pages handle = m.pages handle ∧ describe handle = m.describe handle) :
    ∀ (sources : List ρ) (number : Int) (p : Progress),
      (processAll { m with pages, describe } namer notifier settings number sources p :
        Run σ δ Progress) = processAll m namer notifier settings number sources p
  | [], _, _ => rfl
  | source :: rest, number, p => by
    simp only [processAll, processSource_of_reading h, processAll_of_reading h rest]

/-- **Only sources that may be copied are read.** A run is the same in every medium that finds the
same pages and the same description in the sources that grant copying. -/
theorem run_of_reading
    (h : ∀ handle, m.ensure .copyAndExtract handle = .ok () →
      pages handle = m.pages handle ∧ describe handle = m.describe handle) :
    (run { m with pages, describe } namer notifier settings : Run σ δ Progress) =
      run m namer notifier settings := by
  simp only [run, processAndCommit, processAll_of_reading h]

end

/-! ## Runs with a denied source -/

/-- A loop that fails over the first sources ends the work on all of them. -/
theorem run_processAndCommit_of_error {rest : List ρ} {f : Failure} {s : State σ δ}
    (hsources : settings.sources = before ++ rest)
    (hbefore : (processAll m namer notifier settings 1 before ⟨settings.sources.length, 0⟩).run
      (begun settings store) = (.error f, s)) :
    (processAndCommit m namer notifier settings output).run (begun settings store) =
      (.error f, s) := by
  unfold processAndCommit
  refine Step.run_bind_error ?_
  rw [congrArg (processAll m namer notifier settings 1) hsources, processAll_append]
  exact Step.run_bind_error hbefore

/-- What a run with a denied source leaves, in terms of what the loop over the sources before it
came to: the tree as it was, and behind the trace of the loop, if that came to its end, the source
opened and closed. -/
structure LeftBy (m : Medium ρ σ κ δ) (store : Store) (source : ρ)
    (before : Except Failure Progress × State σ δ) (f : Failure) (s : State σ δ) : Prop where
  tree : s.store.tree = store.tree
  committing : .committing ∉ s.trace
  failed : ∀ g, before.1 = .error g → f = g ∧ s.trace = before.2.trace
  denied : ∀ p, before.1 = .ok p → f = .permissionDenied (m.name source) .copyAndExtract ∧
    ∃ handle, m.sourceName handle = m.name source ∧ s.trace = before.2.trace ++
      [.opened (before.2.opened + 1) handle, .closedSource (before.2.opened + 1) handle]

/-- **A run with a denied source** fails, at the latest with that source. -/
theorem run_of_denied (namer : Namer) (notifier : Notifier) (hm : m.Guarded)
    (hsources : settings.sources = before ++ source :: after)
    (houtput : settings.output = some output) (hdenied : m.Denies store.tree source) :
    ∃ f s, (run m namer notifier settings).run (.start store) = (.error f, s) ∧
      LeftBy m store source ((processAll m namer notifier settings 1 before
        ⟨settings.sources.length, 0⟩).run (begun settings store)) f s := by
  have hlength : (before.length : Int) < settings.sources.length := by
    rw [hsources, List.length_append, List.length_cons]
    omega
  have hsource : source ∈ settings.sources := by simp [hsources]
  have hvalid : settings.validate = .ok output := validate_eq_ok hsource houtput
  obtain ⟨s₁, hcommitting, h⟩ := run_processAll_cases m namer notifier settings before 1
    (p := ⟨settings.sources.length, 0⟩) (agrees_begun settings store) (by dsimp only; omega)
  have hcommitting : .committing ∉ s₁.trace := fun hmem => by cases hcommitting hmem
  have hstart : (Ledger.begun settings store : Ledger σ).Sound store.tree [] :=
    Ledger.sound_start ..
  rcases h with ⟨g, hrun, hall, hs₁, -⟩ | ⟨f, before', g, hrun, hall, htree, hregistry, -⟩
  · obtain ⟨files, hsound⟩ := hstart.enterAll hall
    obtain ⟨handle, hopen, hname, hensure⟩ := hm.denied hsound.free hdenied
    obtain ⟨s₂, hdenial, htree, hregistry, htrace⟩ := run_processSource_of_denied namer settings
      (by rw [hs₁.tree, hsound.tree]; exact hopen) hensure (before.length + 1)
    have hdiscard := hsound.run_discard (htree.trans hs₁.tree) (hregistry.trans hs₁.registry)
    refine ⟨_, _, run_of_error hvalid
      (run_processAndCommit_of_source_error hsources hrun hdenial) hdiscard, ?_⟩
    rw [hrun]
    refine ⟨rfl, ?_, fun _ h => (nomatch h), fun _ _ => ⟨rfl, handle, hname, htrace⟩⟩
    simpa [htrace] using hcommitting
  · obtain ⟨files, hsound⟩ := hstart.enterAll hall
    refine ⟨_, _, run_of_error hvalid (run_processAndCommit_of_error hsources hrun)
      (hsound.run_discard htree hregistry), ?_⟩
    rw [hrun]
    refine ⟨rfl, hcommitting, fun _ h => ?_, fun _ h => (nomatch h)⟩
    cases h
    exact ⟨rfl, rfl⟩

/-- Two states show the same: the files, and what was done, as far as the names of sources tell. -/
structure Alike (m : Medium ρ σ κ δ) (s s' : State σ δ) : Prop where
  tree : s'.store.tree = s.store.tree
  shown : shown m s'.trace = shown m s.trace

theorem Alike.reports {s s' : State σ δ} (h : Alike m s s') :
    reports s'.trace = reports s.trace := by
  rw [← reports_shown m, h.shown, reports_shown]

/-- Denied sources of one name leave the same, behind the same sources. -/
theorem LeftBy.alike {before : Except Failure Progress × State σ δ} {f f' : Failure}
    {s s' : State σ δ} (h : LeftBy m store source before f s)
    (h' : LeftBy m store source' before f' s') (hname : m.name source' = m.name source) :
    f' = f ∧ Alike m s s' := by
  have htree := h'.tree.trans h.tree.symm
  cases houtcome : before.1 with
  | error g =>
    obtain ⟨rfl, htrace⟩ := h.failed g houtcome
    obtain ⟨rfl, htrace'⟩ := h'.failed _ houtcome
    exact ⟨rfl, htree, by rw [htrace, htrace']⟩
  | ok p =>
    obtain ⟨rfl, handle, hhandle, htrace⟩ := h.denied p houtcome
    obtain ⟨rfl, handle', hhandle', htrace'⟩ := h'.denied p houtcome
    refine ⟨by rw [hname], htree, ?_⟩
    rw [htrace, htrace', shown_append, shown_append]
    simp [Batch.shown, Event.mapSource, hhandle, hhandle', hname]

/-- **Nothing of a source that may not be copied shows.** Take two batches with the same settings,
the same files and the same sources, except for one that denies copying, under the same name, in
both, and for any that come behind it. Both runs fail with the same failure and show the same:
files, reports, sources opened, drafts made. If the sources before the denied one succeed, the
failure is its denial; it has been opened and closed, and nothing else has been done with it; no
commit began. No pages and no description have been read of sources that deny copying. -/
theorem run_alike_of_denied (hm : m.Guarded)
    (hsources : settings.sources = before ++ source :: after)
    (hlength : after'.length = after.length) (hname : m.name source' = m.name source)
    (hdenied : m.Denies store.tree source) (hdenied' : m.Denies store.tree source') :
    ∃ f s s', (run m namer notifier settings).run (.start store) = (.error f, s) ∧
      (run m namer notifier { settings with sources := before ++ source' :: after' }).run
        (.start store) = (.error f, s') ∧
      Alike m s s' ∧ reports s'.trace = reports s.trace ∧
      s.store.tree = store.tree ∧ .committing ∉ s.trace ∧
      (∀ p s₁, settings.output ≠ none →
        (processAll m namer notifier settings 1 before ⟨settings.sources.length, 0⟩).run
          (begun settings store) = (.ok p, s₁) →
        f = .permissionDenied (m.name source) .copyAndExtract ∧
          ∃ handle, m.sourceName handle = m.name source ∧ s.trace = s₁.trace ++
            [.opened (s₁.opened + 1) handle, .closedSource (s₁.opened + 1) handle]) ∧
      ∀ pages describe,
        (∀ handle, m.ensure .copyAndExtract handle = .ok () →
          pages handle = m.pages handle ∧ describe handle = m.describe handle) →
        (run { m with pages, describe } namer notifier settings : Run σ δ Progress) =
          run m namer notifier settings := by
  have htotal : (before ++ source' :: after').length = settings.sources.length := by
    rw [hsources]
    simp [hlength]
  rcases Option.eq_none_or_eq_some settings.output with houtput | ⟨output, houtput⟩
  · have hvalid : settings.validate = .error .noOutput := by
      simp [Settings.validate, hsources, houtput]
    have hvalid' : { settings with sources := before ++ source' :: after' }.validate =
        .error .noOutput := by
      simp [Settings.validate, houtput]
    refine ⟨.noOutput, .start store, .start store, run_of_invalid hvalid, run_of_invalid hvalid',
      ⟨rfl, rfl⟩, rfl, rfl, List.not_mem_nil, fun _ _ h => (h houtput).elim,
      fun _ _ => run_of_reading⟩
  · obtain ⟨f, s, hrun, hleft⟩ := run_of_denied namer notifier hm hsources houtput hdenied
    have hsources' : { settings with sources := before ++ source' :: after' }.sources =
        before ++ source' :: after' := rfl
    obtain ⟨f', s', hrun', hleft'⟩ := run_of_denied namer notifier hm hsources' houtput hdenied'
    rw [processAll_with_sources, htotal] at hleft'
    obtain ⟨rfl, halike⟩ := hleft.alike hleft' hname
    refine ⟨_, s, s', hrun, hrun', halike, halike.reports, hleft.tree, hleft.committing,
      fun p s₁ _ hbefore => ?_, fun _ _ => run_of_reading⟩
    have hdenial := hleft.denied p (by rw [hbefore])
    rwa [hbefore] at hdenial

/-- The second source of a batch denies copying. With other pages in it, and another source behind
it, the batch ends alike. -/
theorem run_alike_of_denied_faulty :
    let m := Rehearsal.medium .smooth
    let namer := namerAt ⟨2024, 3, 9, 14, 5, 7, 0⟩
    let store : Store := ⟨stage, 0, .empty false, []⟩
    let first : Rehearsal.Source := ⟨"a", [⟨0, 0, 800, 600⟩], none, false, true⟩
    let other : Rehearsal.Source := ⟨"b", [⟨0, 0, 800, 600⟩], some [.print], false, true⟩
    ∃ s s', (run m namer .silent faultySettings).run (.start store) =
        (.error (.permissionDenied "b" .copyAndExtract), s) ∧
      (run m namer .silent
          { faultySettings with sources := [first, other, ⟨"d", [], none, false, false⟩] }).run
        (.start store) = (.error (.permissionDenied "b" .copyAndExtract), s') ∧
      Alike m s s' ∧ s.store.tree = stage := by
  intro m namer store first other
  obtain ⟨p, hbefore⟩ := Step.run_eq_ok (x := processAll m namer .silent faultySettings 1
    [first] ⟨faultySettings.sources.length, 0⟩) (s := begun faultySettings store)
    (by decide +kernel)
  have hsources : faultySettings.sources = [first] ++ ⟨"b", [], some [], false, false⟩ ::
      [⟨"c", [], none, true, false⟩] := rfl
  have hdenies : m.Denies store.tree ⟨"b", [], some [], false, false⟩ := ⟨_, rfl, rfl⟩
  have hdenies' : m.Denies store.tree other := ⟨_, rfl, rfl⟩
  have halike : ∃ f s s', (run m namer .silent faultySettings).run (.start store) = (.error f, s) ∧
      (run m namer .silent
        { faultySettings with sources := [first] ++ other :: [⟨"d", [], none, false, false⟩] }).run
          (.start store) = (.error f, s') ∧ _ :=
    run_alike_of_denied (Rehearsal.guarded_medium .smooth) hsources rfl rfl hdenies hdenies'
  obtain ⟨f, s, s', hrun, hrun', halike, -, htree, -, hdenied, -⟩ := halike
  obtain ⟨rfl, -⟩ := hdenied p _ (by simp [faultySettings]) hbefore
  exact ⟨s, s', hrun, hrun', halike, htree⟩

end Batch

end Folio
