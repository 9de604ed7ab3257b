import Folio.Proofs.Batch.Ledger
import Folio.Proofs.Batch.Steps

/-!
# Processing sources

`run_processSource`: processing a source changes the store as the ledger says, and if it fails it
leaves tree and registry as they were, whoever has to see to it. Until an output is registered its
buffer is removed by `deposit`, and nothing before that point makes a file.
-/

namespace Folio.Batch

variable {ρ σ κ δ α : Type}

open FileTree

/-! ## Filling a draft -/

/-- Filling a draft yields the split document of the source. -/
theorem yields_fill (m : Medium ρ σ κ δ) (settings : Settings ρ) (text : String) (handle : σ)
    (b : Bench δ) :
    (fill m settings text handle).Yields b (m.assemble settings handle b.draft) := by
  unfold fill Medium.assemble
  refine (Work.yields_attempt _ b).bind fun _ b => ?_
  refine (Work.yields_disturb _ b).bind fun _ b => ?_
  refine (yields_splitDocument m handle b).bind fun _ b => ?_
  refine .after (Work.run_draft b) <| .after (Work.run_note _ b) ?_
  exact (yields_repaginate m settings.repagination _).andThen fun _ b => ⟨(), b, rfl, rfl⟩

/-! ## Depositing a draft -/

/-- The store holds what a ledger says. -/
structure Recorded (g : Ledger σ) (st : Store) : Prop where
  tree : st.tree = g.tree
  buffers : st.buffers = g.buffers
  registry : st.registry = g.registry

section
variable {m : Medium ρ σ κ δ}

/-- Making a buffer notes it; a number is used up even if there is none to be had. -/
theorem run_makeBuffer (s : State σ δ) :
    ∃ log, (makeBuffer : Run σ δ Path).run s =
      match s.store.tree.createFresh
        (Buffer.text (Store.nextNumber s.store.tree ".pdf" s.store.buffers) ".pdf") with
      | .ok tree =>
        (.ok (.ofText
            (Buffer.text (Store.nextNumber s.store.tree ".pdf" s.store.buffers) ".pdf")),
          { s with store := { s.store with
              tree, log, buffers := Store.nextNumber s.store.tree ".pdf" s.store.buffers } })
      | .error e =>
        (.error (.file e), { s with store := { s.store with
          log, buffers := Store.nextNumber s.store.tree ".pdf" s.store.buffers } }) := by
  unfold makeBuffer
  rw [Step.run_bind, Run.run_onStore, Store.run_createBuffer]
  cases s.store.tree.createFresh _ <;> exact ⟨_, rfl⟩

/-- What follows a draft that has been saved. -/
theorem run_send_bind {s : State σ δ} {buffer : Path} {draft : δ} {tree : FileTree}
    (hsave : m.save s.store.tree buffer (m.sent draft) = .ok tree) (next : Run σ δ α) :
    (do
      let (tree, notes) ← Run.ofExcept (m.send (← get).store.tree buffer draft).1
      modify fun s => { s with store := { s.store with tree, log := s.store.log ++ notes } }
      next : Run σ δ α).run s =
      next.run { s with store := { s.store with
        tree, log := s.store.log ++ m.savedNotes (m.sent draft) buffer } } := by
  rw [Step.run_bind_ok (Step.run_get s)]
  simp only [Medium.send, hsave, Except.map]
  rw [Step.run_bind_ok (Run.run_ofExcept (.ok _) s)]
  exact Step.run_bind_ok (Step.run_modify _ s)

/-- A buffer is removed with whatever is in it. -/
theorem run_removeBuffer {t : FileTree} {l : Location} {buffer : Path} {c : Content}
    {s : State σ δ} (hnames : t.Names buffer l) (hnone : t.get? l = none)
    (htree : s.store.tree = t.withFiles [(l, c)]) :
    (modify fun s =>
      let tree := (s.store.tree.unlink buffer).toOption.getD s.store.tree
      { s with store := { s.store with tree } } : Run σ δ Unit).run s =
      (.ok (), { s with store := { s.store with tree := t } }) := by
  rw [Step.run_modify, htree, hnames.unlink_withFiles hnone]
  rfl

/-- Saving a draft to its buffer and registering it. Whatever fails, the buffer is gone again. -/
theorem run_deposit {t : FileTree} {l : Location} {buffer : Path} {s : State σ δ}
    (hnames : t.Names buffer l) (hnone : t.get? l = none)
    (htree : s.store.tree = t.withFiles [(l, .text "")]) (name : Except Failure String)
    (draft : δ) :
    ∃ log, (deposit m name buffer draft).run s =
      match Ledger.stow m s.store.tree s.store.registry name buffer draft with
      | .ok (name, tree, registry) =>
        (.ok name, { s with store := { s.store with tree, registry, log } })
      | .error f => (.error f, { s with store := { s.store with tree := t, log } }) := by
  unfold deposit Ledger.stow
  cases hsave : m.save s.store.tree buffer (m.sent draft) with
  | error f =>
    refine ⟨_, Run.run_orElseDo_error ?_ (run_removeBuffer hnames hnone htree)⟩
    rw [Step.run_bind_ok (Step.run_get s), Medium.send, hsave]
    rfl
  | ok tree =>
    obtain ⟨content, -, rfl⟩ := save_ok hnames hnone (htree ▸ hsave)
    obtain ⟨s₁, hs₁⟩ : ∃ s₁ : State σ δ, s₁ = { s with store := { s.store with
      tree := t.withFiles [(l, content)]
      log := s.store.log ++ m.savedNotes (m.sent draft) buffer } } := ⟨_, rfl⟩
    have hremove := run_removeBuffer hnames hnone (s := s₁) (by rw [hs₁])
    cases name with
    | error f =>
      refine ⟨s₁.store.log, (Run.run_orElseDo_error (f := f) ?_ hremove).trans (by rw [hs₁]; rfl)⟩
      rw [run_send_bind hsave, ← hs₁]
      rfl
    | ok name =>
      have hadd : (Run.onStore (Store.add buffer name) : Run σ δ Unit).run s₁ = _ :=
        Run.run_onStore ..
      rw [Store.run_add] at hadd
      cases h : s₁.store.registry.add buffer name with
      | error f =>
        rw [h] at hadd
        refine ⟨s₁.store.log, (Run.run_orElseDo_error (f := f) ?_ hremove).trans ?_⟩
        · rw [run_send_bind hsave, ← hs₁, Step.run_bind_ok (Run.run_ofExcept (.ok name) _),
            Step.run_bind_error hadd]
        · subst hs₁
          simp only [bind, Except.bind, h]
      | ok registry =>
        rw [h] at hadd
        refine ⟨s₁.store.log, (Run.run_orElseDo_ok
          (?_ : _ = (Except.ok name, { s₁ with store := { s₁.store with registry } }))).trans ?_⟩
        · rw [run_send_bind hsave, ← hs₁, Step.run_bind_ok (Run.run_ofExcept (.ok name) _),
            Step.run_bind_ok hadd]
          rfl
        · subst hs₁
          simp only [bind, Except.bind, h]
          rfl

/-! ## Building -/

section
variable {settings : Settings ρ} {name : Except Failure String} {text : String} {handle : σ}
  {draft : δ} {s : State σ δ} {b : Bench δ} {f : Failure}

theorem run_build_of_fill_error
    (h : (fill m settings text handle).run ⟨draft, s.store.log⟩ = (.error f, b)) :
    (build m settings name text handle draft).run s =
      ((.error f, b.draft), { s with store := { s.store with log := b.log } }) := by
  rw [build, Step.run_bind_state (Run.run_onBench _ _ s), h]
  rfl

theorem run_build_of_buffer_error {s' : State σ δ}
    (h : (fill m settings text handle).run ⟨draft, s.store.log⟩ = (.ok (), b))
    (hbuffer : makeBuffer.run { s with store := { s.store with log := b.log } } =
      (.error f, s')) :
    (build m settings name text handle draft).run s = ((.error f, b.draft), s') := by
  rw [build, Step.run_bind_state (Run.run_onBench _ _ s), h]
  exact Step.run_bind_state hbuffer

theorem run_build_of_buffer {s' s'' : State σ δ} {buffer : Path} {outcome : Except Failure String}
    (h : (fill m settings text handle).run ⟨draft, s.store.log⟩ = (.ok (), b))
    (hbuffer : makeBuffer.run { s with store := { s.store with log := b.log } } =
      (.ok buffer, s'))
    (hdeposit : (deposit m name buffer b.draft).run s' = (outcome, s'')) :
    (build m settings name text handle draft).run s = ((outcome, m.sent b.draft), s'') := by
  rw [build, Step.run_bind_state (Run.run_onBench _ _ s), h]
  refine (Step.run_bind_state hbuffer).trans ?_
  exact Step.run_bind_state hdeposit

/-- Building changes the store as the ledger says; a failure leaves tree and registry alone. -/
theorem run_build (m : Medium ρ σ κ δ) (settings : Settings ρ) (name : Except Failure String)
    (text : String) (handle : σ) (draft : δ) {g : Ledger σ} (hs : Recorded g s.store) :
    ∃ d st, match g.deposit m settings name handle draft with
      | .ok g' => ∃ n, (build m settings name text handle draft).run s =
          ((.ok n, d), { s with store := st }) ∧ Recorded g' st
      | .error f => (build m settings name text handle draft).run s =
          ((.error f, d), { s with store := st }) ∧
        st.tree = g.tree ∧ st.registry = g.registry := by
  obtain ⟨tree, buffers, registry, handles⟩ := g
  obtain ⟨rfl, rfl, rfl⟩ := hs
  have hfill := yields_fill m settings text handle ⟨draft, s.store.log⟩
  unfold Ledger.deposit
  dsimp only at hfill ⊢
  cases hd : m.assemble settings handle draft with
  | error f =>
    rw [hd] at hfill
    obtain ⟨b, hfill⟩ := hfill
    exact ⟨b.draft, _, run_build_of_fill_error hfill, rfl, rfl⟩
  | ok d =>
    rw [hd] at hfill
    obtain ⟨⟨⟩, b, hfill, rfl⟩ := hfill
    obtain ⟨log, hbuffer⟩ := run_makeBuffer { s with store := { s.store with log := b.log } }
    dsimp only at hbuffer
    simp only [bind, Except.bind]
    cases hfresh : s.store.tree.createFresh
        (Buffer.text (Store.nextNumber s.store.tree ".pdf" s.store.buffers) ".pdf") with
    | error e =>
      rw [hfresh] at hbuffer
      exact ⟨b.draft, _, run_build_of_buffer_error hfill hbuffer, rfl, rfl⟩
    | ok fresh =>
      rw [hfresh] at hbuffer
      obtain ⟨l, hnames, hnone, rfl⟩ := createFresh_ok hfresh
      obtain ⟨log', hdeposit⟩ := run_deposit (m := m) hnames hnone (s := { s with store :=
        ⟨s.store.tree.withFiles [(l, .text "")],
          Store.nextNumber s.store.tree ".pdf" s.store.buffers, s.store.registry, log⟩ })
        rfl name b.draft
      simp only [Except.mapError]
      dsimp only at hdeposit
      cases hstow : Ledger.stow m (s.store.tree.withFiles [(l, .text "")]) s.store.registry name
          (.ofText (Buffer.text (Store.nextNumber s.store.tree ".pdf" s.store.buffers) ".pdf"))
          b.draft with
      | error f =>
        rw [hstow] at hdeposit
        exact ⟨_, _, run_build_of_buffer hfill hbuffer hdeposit, rfl, rfl⟩
      | ok r =>
        obtain ⟨n, tree, registry⟩ := r
        rw [hstow] at hdeposit
        exact ⟨_, _, n, run_build_of_buffer hfill hbuffer hdeposit, rfl, rfl, rfl⟩

end

/-! ## Processing a source -/

/-- A draft is made and built, inside its scope. -/
theorem run_withDraft_build {g : Ledger σ} {s : State σ δ} (hs : Recorded g s.store)
    (settings : Settings ρ) (name : Except Failure String) (text : String) (handle : σ) :
    ∃ s', Opened s s' [] ∧
      match m.newDraft s.created >>= fun draft => g.deposit m settings name handle draft with
      | .ok g' => ∃ n, (Run.withDraft m (build m settings name text handle)).run s =
          (.ok n, s') ∧ Recorded g' s'.store ∧ s'.created = s.created + 1
      | .error f => (Run.withDraft m (build m settings name text handle)).run s =
          (.error f, s') ∧ s'.store.tree = g.tree ∧ s'.store.registry = g.registry := by
  cases hdraft : m.newDraft s.created with
  | error f => exact ⟨s, .refl s, Run.run_withDraft_error hdraft, hs.tree, hs.registry⟩
  | ok draft =>
    have hopened : ∀ d st, Opened s
        (Run.afterClose (m.draftName d) (m.draftCloses d) (.closedDraft (s.created + 1) d)
          { Run.afterCreate draft s with store := st }) [] := by
      intro d st
      have hcreated : Opened s { Run.afterCreate draft s with store := st } [] :=
        (Run.opened_afterCreate draft s).congr rfl
      exact hcreated.trans (Run.opened_afterClose_draft ..)
    obtain ⟨d, st, h⟩ := run_build m settings name text handle draft
      (s := Run.afterCreate draft s) hs
    refine ⟨_, hopened d st, ?_⟩
    rw [ok_bind]
    cases hdep : g.deposit m settings name handle draft with
    | error f =>
      rw [hdep] at h
      obtain ⟨hrun, htree, hregistry⟩ := h
      exact ⟨Run.run_withDraft_ok hdraft hrun, htree, hregistry⟩
    | ok g' =>
      rw [hdep] at h
      obtain ⟨n, hrun, hrec⟩ := h
      exact ⟨n, Run.run_withDraft_ok hdraft hrun, ⟨hrec.tree, hrec.buffers, hrec.registry⟩, rfl⟩

/-- A source that grants copying is built; one that does not leaves the state as it is. -/
theorem run_ensure_build {g : Ledger σ} {s : State σ δ} (hs : Recorded g s.store)
    (settings : Settings ρ) (name : Except Failure String) (text : String) (handle : σ) :
    ∃ s', Opened s s' [] ∧
      let run := (do
        Run.ofExcept (m.ensure .copyAndExtract handle)
        Run.withDraft m (build m settings name text handle)).run s
      match m.ensure .copyAndExtract handle >>= fun _ => m.newDraft s.created >>= fun draft =>
          g.deposit m settings name handle draft with
      | .ok g' => ∃ n, run = (.ok n, s') ∧ Recorded g' s'.store ∧ s'.created = s.created + 1
      | .error f => run = (.error f, s') ∧ s'.store.tree = g.tree ∧
          s'.store.registry = g.registry := by
  cases m.ensure .copyAndExtract handle with
  | error f =>
    exact ⟨s, .refl s, Step.run_bind_error (Run.run_ofExcept (.error f) s), hs.tree, hs.registry⟩
  | ok u =>
    rw [ok_bind]
    dsimp only
    rw [Step.run_bind_ok (Run.run_ofExcept (.ok u) s)]
    exact run_withDraft_build hs settings name text handle

/-- The state of a run holds what a ledger says. -/
structure Agrees (g : Ledger σ) (s : State σ δ) : Prop extends Recorded g s.store where
  created : s.created = g.handles.length
  openings : openings s.trace = g.handles

section
variable (namer : Namer) (settings : Settings ρ) (number : Int) (source : ρ)

/-- A source is opened and built, inside the scopes of its handle and its draft. -/
theorem run_withSource_build {g : Ledger σ} {s : State σ δ} (hs : Agrees g s) :
    ∃ s', Opened s s' (m.openSource g.tree source).toOption.toList ∧
      let run := (Run.withSource m source fun handle => do
        Run.ofExcept (m.ensure .copyAndExtract handle)
        Run.withDraft m
          (build m settings (namer settings.pattern (m.name source) number) (m.text source)
            handle)).run s
      match g.enter m namer settings number source with
      | .ok g' => ∃ name, run = (.ok name, s') ∧ Agrees g' s'
      | .error f => run = (.error f, s') ∧
          s'.store.tree = g.tree ∧ s'.store.registry = g.registry := by
  unfold Ledger.enter
  cases hopen : m.openSource g.tree source with
  | error f =>
    exact ⟨s, .refl s, Run.run_withSource_error (hs.tree ▸ hopen), hs.tree, hs.registry⟩
  | ok handle =>
    obtain ⟨s₁, hbuilt, h⟩ := run_ensure_build (m := m) (s := Run.afterOpen handle s)
      ⟨hs.tree, hs.buffers, hs.registry⟩ settings
      (namer settings.pattern (m.name source) number) (m.text source) handle
    have hcreated : (Run.afterOpen handle s).created = g.handles.length := hs.created
    have hclosed : Opened s (Run.afterClose (m.sourceName handle) (m.sourceCloses handle)
        (.closedSource (s.opened + 1) handle) s₁) [handle] :=
      ((Run.opened_afterOpen handle s).trans hbuilt).trans (Run.opened_afterClose_source ..)
    rw [hcreated, ← bind_assoc] at h
    refine ⟨_, hclosed, ?_⟩
    rw [ok_bind, ← bind_assoc, ← bind_assoc]
    cases hbuild : m.ensure .copyAndExtract handle >>= (fun _ => m.newDraft g.handles.length) >>=
        fun draft => g.deposit m settings (namer settings.pattern (m.name source) number) handle
          draft with
    | error f =>
      rw [hbuild] at h
      obtain ⟨hrun, htree, hregistry⟩ := h
      exact ⟨Run.run_withSource_ok (hs.tree ▸ hopen) hrun, htree, hregistry⟩
    | ok g' =>
      rw [hbuild] at h
      obtain ⟨n, hrun, hrec, hcreated'⟩ := h
      obtain ⟨draft, -, hdep⟩ := ok_of_bind hbuild
      obtain ⟨_, _, _, _, -, hdep⟩ := deposited_of_deposit hdep
      refine ⟨n, Run.run_withSource_ok (hs.tree ▸ hopen) hrun,
        ⟨hrec.tree, hrec.buffers, hrec.registry⟩, ?_, ?_⟩
      · exact hcreated'.trans (by rw [List.length_append, hdep.handles]; rfl)
      · rw [hclosed.openings, hs.openings, hdep.handles]

/-- **Processing a source** changes the state as the ledger says. If it fails, tree and registry are
as before, and the source has been opened if it can be opened. -/
theorem run_processSource {g : Ledger σ} {s : State σ δ} (hs : Agrees g s) :
    ∃ s', Opened s s' (m.openSource g.tree source).toOption.toList ∧
      match g.enter m namer settings number source with
      | .ok g' => ∃ name, (processSource m namer settings number source).run s = (.ok name, s') ∧
          Agrees g' s'
      | .error f => (processSource m namer settings number source).run s = (.error f, s') ∧
          s'.store.tree = g.tree ∧ s'.store.registry = g.registry := by
  obtain ⟨s', hopened, h⟩ := run_withSource_build (m := m) namer settings number source
    (s := { s with store := { s.store with
      log := s.store.log ++ [Log.debug "batch" s!"Opening {m.text source}"] } })
    ⟨⟨hs.tree, hs.buffers, hs.registry⟩, hs.created, hs.openings⟩
  rw [processSource, Step.run_bind_ok (Run.run_note _ s)]
  exact ⟨s', ⟨hopened.openings, hopened.reports, hopened.committing⟩, h⟩

end

end

end Folio.Batch
