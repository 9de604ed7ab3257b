import Folio.Proofs.Batch.Loop
import Folio.Proofs.Output.Committing

/-!
# The course of a run

A run either ends before its commit, with the tree as it was, or it comes to its commit, with a
sound ledger of all sources (`run_course`). What becomes of the buffers then is the commit's
business.
-/

namespace Folio.Batch

open FileTree

variable {ρ σ κ δ : Type} {m : Medium ρ σ κ δ} {namer : Namer} {notifier : Notifier}
  {settings : Settings ρ} {output : Path} {store : Store}

/-! ## Sound ledgers -/

section
variable {g : Ledger σ} {t : FileTree} {files : List (Location × Content)}

/-- The buffers of a sound ledger are files. -/
theorem Ledger.Sound.filledAt (hg : g.Sound t files) :
    Store.FilledAt g.tree g.registry.outputs (files.map Prod.fst) := by
  have hkept : DirectoriesKept t g.tree := hg.tree ▸ hg.free.directoriesKept
  have hfile : ∀ x ∈ files, ∃ c, g.tree.get? x.1 = some (.file c) := fun x hx =>
    ⟨x.2, by rw [hg.tree, hg.free.get?_of_mem hx]⟩
  have hbuffers := hg.buffers
  unfold Store.BuffersAt at hbuffers
  unfold Store.FilledAt
  generalize g.registry.outputs = outputs at hbuffers
  clear hg
  induction hbuffers with
  | nil => exact .nil
  | cons hnames _ ih =>
    exact .cons ⟨hnames.mono hkept, hfile _ List.mem_cons_self⟩
      (ih fun x hx => hfile x (List.mem_cons_of_mem _ hx))

/-- The tree of a sound ledger is well formed: its buffers lie in directories. -/
theorem Ledger.Sound.wellFormed (hg : g.Sound t files) (ht : t.WellFormed) :
    g.tree.WellFormed := by
  rw [hg.tree]
  constructor
  · rw [hg.free.isDirectory_eq]
    exact ht.cwd
  · intro l hl hhas
    rw [hg.free.isDirectory_eq]
    obtain ⟨e, he⟩ := has_iff.1 hhas
    rw [hg.free.get?_eq] at he
    cases hlookup : files.lookup l with
    | none =>
      rw [hlookup] at he
      exact ht.parent l hl (has_iff.2 ⟨e, he⟩)
    | some c =>
      obtain ⟨l₁, l₂, hfiles, -⟩ := List.lookup_eq_some_iff.1 hlookup
      have hl : l ∈ files.map Prod.fst := by simp [hfiles]
      obtain ⟨output, -, hnames⟩ := (Store.mem_of_names
        (List.forall₂_map_right_iff.2 hg.buffers)).1 hl
      exact hnames.isDirectory_dropLast

/-- A sound ledger is discarded without a trace in the tree. -/
theorem Ledger.Sound.run_discard (hg : g.Sound t files) {st : Store} (htree : st.tree = g.tree)
    (hregistry : st.registry = g.registry) :
    Store.discard.run st = (.ok (), { st with tree := t, registry := st.registry.clear }) :=
  Store.run_discard (hregistry ▸ hg.buffers) hg.free (htree.trans hg.tree)

end

/-! ## Before and behind the sources -/

/-- A tree with a place for temporary buffers. -/
def stage : FileTree := ⟨["w"], [(["w"], .directory), (["w", "tmp"], .directory)]⟩

/-- The state once the registry has been emptied. -/
def begun (settings : Settings ρ) (store : Store) : State σ δ :=
  .start { store with registry := .empty settings.overwrite }

/-- The ledger of a batch before its first source. -/
def Ledger.begun (settings : Settings ρ) (store : Store) : Ledger σ :=
  .start store.tree store.buffers settings.overwrite

theorem agrees_begun (settings : Settings ρ) (store : Store) :
    Agrees (.begun settings store) (begun settings store : State σ δ) :=
  ⟨⟨rfl, rfl, rfl⟩, rfl, rfl⟩

/-- Settings with a source and an output directory are accepted. -/
theorem validate_eq_ok {source : ρ} (hsource : source ∈ settings.sources)
    (houtput : settings.output = some output) : settings.validate = .ok output := by
  have : settings.sources.isEmpty = false := by
    simpa using List.ne_nil_of_mem hsource
  simp [Settings.validate, this, houtput]

theorem output_of_validate (h : settings.validate = .ok output) :
    settings.output = some output := by
  unfold Settings.validate at h
  split at h
  · cases h
  · split at h
    · cases h
    · next directory houtput =>
      cases h
      exact houtput

/-- A run with improper settings does nothing. -/
theorem run_of_invalid {f : Failure} (hvalid : settings.validate = .error f) :
    (run m namer notifier settings).run (.start store) = (.error f, .start store) := by
  rw [run, hvalid, Step.run_bind_error (Run.run_ofExcept (.error f) _)]

/-- A run with proper settings goes on from an empty registry. -/
theorem run_of_validate (hvalid : settings.validate = .ok output) :
    (run m namer notifier settings).run (.start store) =
      (do
        let progress ←
          Run.orElseDo (processAndCommit m namer notifier settings output)
            (Run.onStore Store.discard)
        Run.note (Log.debug "batch" s!"Input documents split and written to {output.text}")
        return progress : Run σ δ Progress).run (begun settings store) := by
  unfold run
  rw [hvalid, Step.run_bind_ok (Run.run_ofExcept (.ok output) _),
    Step.run_bind_ok (Step.run_modify _ _)]
  rfl

/-- A run that fails behind its settings discards what is registered. -/
theorem run_of_error {f : Failure} {s : State σ δ} {st : Store}
    (hvalid : settings.validate = .ok output)
    (h : (processAndCommit m namer notifier settings output).run (begun settings store) =
      (.error f, s))
    (hdiscard : Store.discard.run s.store = (.ok (), st)) :
    (run m namer notifier settings).run (.start store) = (.error f, { s with store := st }) := by
  have hrescue : (Run.onStore Store.discard : Run σ δ Unit).run s =
      (.ok (), { s with store := st }) := by
    rw [Run.run_onStore, hdiscard]
  exact (run_of_validate hvalid).trans (Step.run_bind_error (Run.run_orElseDo_error h hrescue))

/-- A run whose parts succeed notes that it is done. -/
theorem run_of_ok {p : Progress} {s : State σ δ} (hvalid : settings.validate = .ok output)
    (h : (processAndCommit m namer notifier settings output).run (begun settings store) =
      (.ok p, s)) :
    ∃ log, (run m namer notifier settings).run (.start store) =
      (.ok p, { s with store := { s.store with log } }) := by
  rw [run_of_validate hvalid, Step.run_bind_ok (Run.run_orElseDo_ok h)]
  exact ⟨_, Step.run_bind_ok (Run.run_note _ s)⟩

/-- A run succeeds only if its parts do. -/
theorem ok_of_run {p : Progress} {s' : State σ δ} (hvalid : settings.validate = .ok output)
    (h : (run m namer notifier settings).run (.start store) = (.ok p, s')) :
    ∃ s log, (processAndCommit m namer notifier settings output).run (begun settings store) =
        (.ok p, s) ∧ s' = { s with store := { s.store with log } } := by
  rw [run_of_validate hvalid] at h
  obtain ⟨p', s, hbody, h⟩ := Step.run_bind_eq_ok h
  rw [Step.run_bind_ok (Run.run_note _ s)] at h
  cases h
  exact ⟨s, _, Run.run_orElseDo_eq_ok hbody, rfl⟩

/-- A run that has come to its commit: all sources are entered in a sound ledger, which the state
agrees with, and reported. -/
structure AtCommit (m : Medium ρ σ κ δ) (namer : Namer) (notifier : Notifier)
    (settings : Settings ρ) (store : Store) (p : Progress) (s : State σ δ) (g : Ledger σ)
    (files : List (Location × Content)) : Prop where
  processed : (processAll m namer notifier settings 1 settings.sources
    ⟨settings.sources.length, 0⟩).run (begun settings store) = (.ok p, s)
  progress : p = ⟨settings.sources.length, settings.sources.length⟩
  entered : (Ledger.begun settings store).enterAll m namer settings 1 settings.sources = .ok g
  agrees : Agrees g s
  sound : g.Sound store.tree files
  reports : reports s.trace = reportsFrom 0 settings.sources.length settings.sources.length
  committing : .committing ∉ s.trace

/-- A loop that gets to its end comes to the commit. -/
theorem exists_atCommit (h : ((processAll m namer notifier settings 1 settings.sources
      ⟨settings.sources.length, 0⟩).run (begun settings store)).1.isOk = true) :
    ∃ p s g files, AtCommit m namer notifier settings store p s g files := by
  obtain ⟨s, hcommitting, ⟨g, hrun, hall, hagrees, hreports⟩ | ⟨f, -, -, hrun, -⟩⟩ :=
    run_processAll_cases m namer notifier settings settings.sources 1
      (p := ⟨settings.sources.length, 0⟩) (agrees_begun settings store) (by dsimp only; omega)
  · have hstart : (Ledger.begun settings store : Ledger σ).Sound store.tree [] :=
      Ledger.sound_start ..
    obtain ⟨files, hsound⟩ := hstart.enterAll hall
    refine ⟨_, s, g, files, hrun, ?_, hall, hagrees, hsound, hreports, fun hmem => ?_⟩
    · rw [Int.zero_add]
    · cases hcommitting hmem
  · rw [hrun] at h
    cases h

/-- **A run comes to its commit**, or it fails before it with the tree as it was: over its settings,
over a source, or over the notifier. -/
theorem run_course (m : Medium ρ σ κ δ) (namer : Namer) (notifier : Notifier)
    (settings : Settings ρ) (store : Store) :
    (∃ f s, (run m namer notifier settings).run (.start store) = (.error f, s) ∧
        .committing ∉ s.trace ∧ s.store.tree = store.tree ∧
        (settings.validate = .error f ∨
          (Ledger.begun settings store).enterAll m namer settings 1 settings.sources = .error f ∨
          ∃ current, (notifier current settings.sources.length).2 = .error f)) ∨
      ∃ output p s g files, settings.validate = .ok output ∧
        AtCommit m namer notifier settings store p s g files := by
  cases hvalid : settings.validate with
  | error f =>
    exact .inl ⟨f, .start store, run_of_invalid hvalid, List.not_mem_nil, rfl, .inl rfl⟩
  | ok output =>
    obtain ⟨s, hcommitting, h⟩ := run_processAll_cases m namer notifier settings
      settings.sources 1 (p := ⟨settings.sources.length, 0⟩) (agrees_begun settings store)
      (by dsimp only; omega)
    have hcommitting : .committing ∉ s.trace := fun hmem => by cases hcommitting hmem
    have hstart : (Ledger.begun settings store : Ledger σ).Sound store.tree [] :=
      Ledger.sound_start ..
    rcases h with ⟨g, hrun, -⟩ | ⟨f, before, g, hrun, hall, htree, hregistry, hcause⟩
    · have hok : ((processAll m namer notifier settings 1 settings.sources
          ⟨settings.sources.length, 0⟩).run (begun settings store)).1.isOk = true := by
        rw [hrun]
        rfl
      obtain ⟨p, s, g, files, h⟩ := exists_atCommit hok
      exact .inr ⟨output, p, s, g, files, rfl, h⟩
    · obtain ⟨files, hsound⟩ := hstart.enterAll hall
      exact .inl ⟨f, _, run_of_error hvalid (Step.run_bind_error hrun)
        (hsound.run_discard htree hregistry), hcommitting, rfl, .inr hcause⟩

section
variable {p : Progress} {s : State σ δ} {g : Ledger σ} {files : List (Location × Content)}

/-- The locations of a ledger's buffers are those that the paths in the registry name. -/
theorem AtCommit.isBuffer_iff (h : AtCommit m namer notifier settings store p s g files)
    {l : Location} : s.store.IsBuffer l ↔ l ∈ files.map Prod.fst := by
  have hnames := h.sound.filledAt.imp fun _ _ h => h.1
  rw [Store.IsBuffer, h.agrees.tree, h.agrees.registry, Store.mem_of_names hnames]

/-- The tree that is committed to is well formed. -/
theorem AtCommit.wellFormed (h : AtCommit m namer notifier settings store p s g files)
    (ht : store.tree.WellFormed) : s.store.tree.WellFormed :=
  h.agrees.tree ▸ h.sound.wellFormed ht

theorem AtCommit.makes
    (h : AtCommit m namer notifier settings store p s g files) (ht : store.tree.WellFormed)
    (output : Path) : Makes s.store.tree output (s.store.tree.makeDirectories output) :=
  makes_makeDirectories (h.wellFormed ht) output

/-- Where no buffer is, the output directory is all that the commit finds changed. -/
theorem AtCommit.get?_makeDirectories (h : AtCommit m namer notifier settings store p s g files)
    (ht : store.tree.WellFormed) {l : Location} (hl : l ∉ files.map Prod.fst) (output : Path) :
    (s.store.tree.makeDirectories output).2.get? l = store.tree.get? l ∨
      (store.tree.get? l = none ∧
        (s.store.tree.makeDirectories output).2.get? l = some .directory ∧
        (s.store.tree.makeDirectories output).2.OnWay output l) := by
  have hbefore : s.store.tree.get? l = store.tree.get? l := by
    rw [h.agrees.tree, h.sound.tree]
    exact h.sound.free.get?_of_notMem hl
  rw [← hbefore]
  exact (h.makes ht output).made.get?_eq l

end

/-- Sources that are processed are committed. -/
theorem run_processAndCommit (output : Path) {p : Progress} {s : State σ δ}
    (h : (processAll m namer notifier settings 1 settings.sources
      ⟨settings.sources.length, 0⟩).run (begun settings store) = (.ok p, s)) :
    (processAndCommit m namer notifier settings output).run (begun settings store) =
      (((Store.commit output).run s.store).1.map fun _ => p,
        { s with
          store := ((Store.commit output).run s.store).2
          trace := s.trace ++ [.committing] }) := by
  unfold processAndCommit
  rw [Step.run_bind_ok h, Step.run_bind_ok (Run.run_record _ s), Step.run_bind, Run.run_onStore]
  rcases (Store.commit output).run s.store with ⟨_ | _, _⟩ <;> rfl

end Folio.Batch
