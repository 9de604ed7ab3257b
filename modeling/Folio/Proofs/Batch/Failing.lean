import Folio.Proofs.Batch.Delivery
import Folio.Proofs.Document.Opening
import Folio.Proofs.Output.Escaping

/-!
# What gets past a run

Opening, splitting, saving and naming documents fails, if at all, with a failure of splitting. What
is left are the operations on files that no part of a run guards: making a temporary buffer, and in
the commit making the directory and looking for targets. `run_unhandled` says that a run over
document files ends with another failure exactly if one of these is refused.
-/

namespace Folio.Batch

open FileTree

variable {ρ σ κ δ : Type} {m : Medium ρ σ κ δ} {namer : Namer} {notifier : Notifier}
  {time : Instant}

/-! ## Entering a source -/

/-- A source can be opened, copied and split, but there is no buffer to be had for it. -/
structure Ledger.Bufferless (m : Medium ρ σ κ δ) (settings : Settings ρ) (g : Ledger σ) (source : ρ)
    (e : FileError) : Prop where
  split : ∃ handle blank d, m.openSource g.tree source = .ok handle ∧
    m.ensure .copyAndExtract handle = .ok () ∧ m.newDraft g.handles.length = .ok blank ∧
    m.assemble settings handle blank = .ok d
  refused : g.tree.createFresh (Buffer.text (Store.nextNumber g.tree ".pdf" g.buffers) ".pdf") =
    .error e

/-- Such a source cannot be entered, and the error of the file system is the failure. -/
theorem Ledger.Bufferless.enter {settings : Settings ρ} {g : Ledger σ} {source : ρ} {e : FileError}
    (h : g.Bufferless m settings source e) (number : Int) :
    g.enter m namer settings number source = .error (.file e) := by
  obtain ⟨handle, blank, d, hopen, hensure, hblank, hd⟩ := h.split
  simp only [Ledger.enter, Ledger.deposit, hopen, hensure, hblank, hd, h.refused, ok_bind]
  rfl

section
variable {settings : Settings Pdf.Source} {g : Ledger Pdf.Handle} {source : Pdf.Source}
  {f : Failure}

/-- A document that has been opened is split, unless there is no such version or one of its pages is
degenerate. -/
theorem assemble_error {handle : Pdf.Handle} {file : Pdf.File} {blank : Pdf.Draft}
    (hfile : handle.file = some file)
    (h : Pdf.medium.assemble settings handle blank = .error f) :
    Settings.checkVersion settings.version = .error f ∨ ∃ box, f = .degenerateBox box := by
  rcases error_of_bind h with hset | ⟨versioned, -, h⟩
  · left
    change Pdf.Draft.setVersion settings.version blank = .error f at hset
    unfold Pdf.Draft.setVersion at hset
    split at hset
    · cases hset
    · next v hv =>
      split at hset
      · cases hset
      · next hunknown =>
        cases hset
        rw [hv, Settings.checkVersion, if_neg hunknown]
  right
  rcases error_of_bind h with hdescribe | ⟨described, -, h⟩
  · change Medium.kept (Pdf.Draft.describe handle versioned) = .error f at hdescribe
    rw [Pdf.Draft.describe, hfile] at hdescribe
    cases hdescribe
  rcases error_of_bind h with hleaves | ⟨split, -, h⟩
  · have hpages : Pdf.medium.pages handle = (handle.pages.map Pdf.Page.forSplitting).map .ok := by
      rw [List.map_map]
      rfl
    rw [hpages] at hleaves
    exact Medium.addLeaves_error hleaves
  · obtain ⟨d, hmoves⟩ := Pdf.pageView.moveAll_ok settings.repagination split
    rw [hmoves] at h
    cases h

/-- A split document is stowed in a new buffer, unless its name is taken. -/
theorem stow_error {tree : FileTree} {text name : String} {draft : Pdf.Draft}
    (hcreate : g.tree.createFresh text = .ok tree)
    (h : Ledger.stow Pdf.medium tree g.registry (.ok name) (.ofText text) draft = .error f) :
    f = .repeatedName name ∧ name ∈ g.registry.names := by
  obtain ⟨l, hnames, hnone, rfl⟩ := createFresh_ok hcreate
  rcases error_of_bind h with h | ⟨saved, -, h⟩
  · rw [save_of_content hnames hnone rfl] at h
    cases h
  · rcases error_of_bind h with h | ⟨_, hname, h⟩
    · cases h
    cases hname
    rcases error_of_bind h with h | ⟨_, -, h⟩
    · unfold Registry.add at h
      split at h <;> cases h
      exact ⟨rfl, ‹_›⟩
    · cases h

/-- **A source that cannot be entered** fails as a source, or for want of a buffer. -/
theorem enter_error (hpath : source.path.hasNul = false)
    (hversion : Settings.checkVersion settings.version = .ok ()) {number : Int}
    (h : g.enter Pdf.medium (namerAt time) settings number source = .error f) :
    f.isSplitting = true ∨ ∃ e, f = .file e ∧ g.Bufferless Pdf.medium settings source e := by
  rcases error_of_bind h with hopen | ⟨handle, hopen, h⟩
  · obtain ⟨fault, rfl⟩ := Pdf.openIn_error hpath hopen
    exact .inl rfl
  obtain ⟨file, -, hunlock⟩ := Pdf.openIn_eq_ok.1 hopen
  rcases error_of_bind h with hensure | ⟨⟨⟩, hensure, h⟩
  · rw [Pdf.guarded_medium.denied_eq hensure]
    exact .inl rfl
  rcases error_of_bind h with hblank | ⟨blank, hblank, h⟩
  · cases hblank
  rcases error_of_bind h with hdeposit | ⟨_, -, h⟩
  · rcases error_of_bind hdeposit with hd | ⟨d, hd, hdeposit⟩
    · rcases assemble_error (Pdf.file_of_unlock hunlock) hd with hunknown | ⟨box, rfl⟩
      · rw [hversion] at hunknown
        cases hunknown
      · exact .inl rfl
    dsimp only at hdeposit
    cases hcreate : g.tree.createFresh
        (Buffer.text (Store.nextNumber g.tree ".pdf" g.buffers) ".pdf") with
    | error e =>
      rw [hcreate] at hdeposit
      cases hdeposit
      exact .inr ⟨e, rfl, ⟨handle, blank, d, hopen, hensure, hblank, hd⟩, hcreate⟩
    | ok tree =>
      rw [hcreate] at hdeposit
      rcases error_of_bind hdeposit with hcreated | ⟨_, hcreated, hdeposit⟩
      · cases hcreated
      cases hcreated
      rcases error_of_bind hdeposit with hstow | ⟨_, -, hdeposit⟩
      · rw [(stow_error hcreate hstow).1]
        exact .inl rfl
      · cases hdeposit
  · cases h

end

/-! ## Runs -/

/-- Why a run ends with an error of the file system as it stands: behind some sources there is no
buffer to be had for the next one, or all of them have been entered and the commit lets the error
past. -/
inductive Unhandled (m : Medium ρ σ κ δ) (namer : Namer) (settings : Settings ρ) (store : Store)
    (output : Path) : FileError → Prop
  | buffer {before after : List ρ} {source : ρ} {g : Ledger σ} {e : FileError}
      (hsources : settings.sources = before ++ source :: after)
      (hbefore : (Ledger.begun settings store).enterAll m namer settings 1 before = .ok g)
      (h : g.Bufferless m settings source e) : Unhandled m namer settings store output e
  | commit {g : Ledger σ} {e : FileError}
      (hall : (Ledger.begun settings store).enterAll m namer settings 1 settings.sources = .ok g)
      (h : Store.Unhandled g.tree g.registry output e) : Unhandled m namer settings store output e

/-- An error that gets past a batch stops it at a source or in its commit. -/
theorem Unhandled.enterAll_or_commit {settings : Settings ρ} {store : Store} {output : Path}
    {e : FileError} (h : Unhandled m namer settings store output e) :
    (Ledger.begun settings store).enterAll m namer settings 1 settings.sources = .error (.file e) ∨
      ∃ g, (Ledger.begun settings store).enterAll m namer settings 1 settings.sources = .ok g ∧
        Store.Unhandled g.tree g.registry output e := by
  cases h with
  | buffer hsources hbefore h =>
    exact .inl (Ledger.enterAll_eq_error.2 ⟨_, _, _, _, hsources, hbefore, h.enter _⟩)
  | commit hall h => exact .inr ⟨_, hall, h⟩

/-- The buffers that wait for a commit can be handed to the file system. -/
theorem AtCommit.hasNul_buffers {settings : Settings ρ} {store : Store} {p : Progress}
    {s : State σ δ} {g : Ledger σ} {files : List (Location × Content)}
    (h : AtCommit m namer notifier settings store p s g files) :
    ∀ output ∈ s.store.registry.outputs, output.2.hasNul = false := by
  obtain ⟨items, hitems, -⟩ := h.exists_entered
  intro output houtput
  rw [h.agrees.registry, hitems.outputs] at houtput
  obtain ⟨x, hx, rfl⟩ := List.mem_map.1 houtput
  exact (hitems.waitsIn x hx).names.hasNul

/-- A run that comes to its commit ends as the commit does. -/
theorem AtCommit.outcome {settings : Settings ρ} {store : Store} {output : Path} {p : Progress}
    {s : State σ δ} {g : Ledger σ} {files : List (Location × Content)}
    (h : AtCommit m namer notifier settings store p s g files)
    (hvalid : settings.validate = .ok output) :
    ((run m namer notifier settings).run (.start store)).1 =
      ((Store.commit output).run s.store).1.map fun _ => p := by
  have hprocess := run_processAndCommit output h.processed
  rcases hcommit : (Store.commit output).run s.store with ⟨f | ⟨⟨⟩⟩, st⟩
  · rw [hcommit] at hprocess
    have hregistry := Store.registry_commit output s.store
    rw [hcommit] at hregistry
    obtain ⟨st', hdiscard⟩ := Store.run_discard_ok (s := st) (hregistry ▸ h.hasNul_buffers)
    rw [run_of_error hvalid hprocess hdiscard]
    rfl
  · rw [hcommit] at hprocess
    obtain ⟨log, hok⟩ := run_of_ok hvalid hprocess
    rw [hok]
    rfl

section
variable {settings : Settings Pdf.Source} {store : Store} {output : Path}

/-- The names of a batch of documents can be handed to the file system if its pattern and the names
of its sources can. -/
theorem nul_notMem_outputNames (hpattern : Char.ofNat 0 ∉ settings.pattern.toList)
    (hnames : ∀ source ∈ settings.sources, Char.ofNat 0 ∉ source.name.toList) :
    ∀ name ∈ outputNames Pdf.medium time settings, Char.ofNat 0 ∉ name.toList := by
  intro name hname
  obtain ⟨i, hi, rfl⟩ := List.mem_mapIdx.1 hname
  have hsource := hnames _ (List.getElem_mem hi)
  exact Naming.notMem_outputName (by decide) hpattern
    (Path.notMem_name fun _ hpart => Path.notMem_of_mem_parts hsource hpart)

/-- A batch whose sources cannot all be entered lets an error past just if a buffer is what it
lacks. -/
theorem unhandled_of_enterAll_error (output : Path) {g : Failure}
    (hall : (Ledger.begun settings store).enterAll Pdf.medium (namerAt time) settings 1
      settings.sources = .error g)
    (hversion : Settings.checkVersion settings.version = .ok ())
    (hpaths : ∀ source ∈ settings.sources, source.path.hasNul = false) :
    g.isSplitting = false ↔
      ∃ e, g = .file e ∧ Unhandled Pdf.medium (namerAt time) settings store output e := by
  constructor
  · intro hkind
    obtain ⟨before, source, after, g₁, hsources, hbefore, henter⟩ := Ledger.enterAll_eq_error.1 hall
    have hpath := hpaths source (by simp [hsources])
    rcases enter_error hpath hversion henter with hsplitting | ⟨e, rfl, hbufferless⟩
    · rw [hkind] at hsplitting
      cases hsplitting
    · exact ⟨e, rfl, .buffer hsources hbefore hbufferless⟩
  · rintro ⟨e, rfl, -⟩
    exact Store.isSplitting_file e

/-- Of a batch that comes to its commit, what gets past the commit gets past the run. -/
theorem AtCommit.unhandled {p : Progress} {s : State Pdf.Handle Pdf.Draft} {g : Ledger Pdf.Handle}
    {items : List Pending} {f : Failure}
    (h : AtCommit Pdf.medium (namerAt time) .silent settings store p s g (items.map Pending.file))
    (hitems : Entered Pdf.medium (namerAt time) settings store.tree settings.sources g items)
    (hvalid : settings.validate = .ok output)
    (hpattern : Char.ofNat 0 ∉ settings.pattern.toList)
    (hnames : ∀ source ∈ settings.sources, Char.ofNat 0 ∉ source.name.toList) :
    ((run Pdf.medium (namerAt time) .silent settings).run (.start store)).1 = .error f ∧
        f.isSplitting = false ↔
      ∃ e, f = .file e ∧ Store.Unhandled g.tree g.registry output e := by
  have hnames' : ∀ name ∈ s.store.registry.names, Char.ofNat 0 ∉ name.toList := by
    have hregistered : s.store.registry.names = outputNames Pdf.medium time settings := by
      rw [Registry.names, h.agrees.registry, hitems.outputs, List.map_map, ← hitems.map_name]
      rfl
    exact hregistered ▸ nul_notMem_outputNames hpattern hnames
  have hiff : ((Store.commit output).run s.store).1 = .error f ∧ _ ↔ _ :=
    Store.commit_unhandled hnames' h.hasNul_buffers
  rw [h.agrees.tree, h.agrees.registry] at hiff
  rw [h.outcome hvalid]
  constructor
  · rintro ⟨hfailed, hkind⟩
    cases houtcome : ((Store.commit output).run s.store).1 with
    | ok u =>
      rw [houtcome] at hfailed
      cases hfailed
    | error f' =>
      rw [houtcome] at hfailed
      cases hfailed
      exact hiff.1 ⟨houtcome, Store.kind_ne_of_isSplitting hkind⟩
  · rintro ⟨e, rfl, hunhandled⟩
    rw [(hiff.2 ⟨e, rfl, hunhandled⟩).1]
    exact ⟨rfl, Store.isSplitting_file e⟩

/-- **What gets past a run.** A run over documents, whose names and paths can be handed to the file
system, ends with a failure that is none of splitting exactly if that is an error of the file system
in making a buffer, in making the output directory, or in looking for a target. -/
theorem run_unhandled {f : Failure} (hvalid : settings.validate = .ok output)
    (hversion : Settings.checkVersion settings.version = .ok ())
    (hpattern : Char.ofNat 0 ∉ settings.pattern.toList)
    (hnames : ∀ source ∈ settings.sources, Char.ofNat 0 ∉ source.name.toList)
    (hpaths : ∀ source ∈ settings.sources, source.path.hasNul = false) :
    ((run Pdf.medium (namerAt time) .silent settings).run (.start store)).1 = .error f ∧
        f.isSplitting = false ↔
      ∃ e, f = .file e ∧ Unhandled Pdf.medium (namerAt time) settings store output e := by
  rcases run_course Pdf.medium (namerAt time) .silent settings store with
    ⟨g, s, hrun, -, -, hcause⟩ | ⟨output', p, s, g, files, hvalid', hcommit⟩
  · have hall : (Ledger.begun settings store).enterAll Pdf.medium (namerAt time) settings 1
        settings.sources = .error g := by
      rcases hcause with hinvalid | hall | ⟨_, hnotifier⟩
      · rw [hvalid] at hinvalid
        cases hinvalid
      · exact hall
      · cases hnotifier
    have hiff := unhandled_of_enterAll_error output hall hversion hpaths
    rw [hrun]
    constructor
    · rintro ⟨hfailed, hkind⟩
      cases hfailed
      exact hiff.1 hkind
    · rintro ⟨e, rfl, h⟩
      refine ⟨?_, Store.isSplitting_file e⟩
      rcases h.enterAll_or_commit with hfailed | ⟨_, hok, -⟩
      · cases hall.symm.trans hfailed
        rfl
      · rw [hall] at hok
        cases hok
  · cases hvalid.symm.trans hvalid'
    obtain ⟨items, hitems, hcommit⟩ := hcommit.exists_entered
    rw [hcommit.unhandled hitems hvalid hpattern hnames]
    refine exists_congr fun e => and_congr_right fun _ => ⟨.commit hcommit.entered, fun h => ?_⟩
    rcases h.enterAll_or_commit with hfailed | ⟨g', hok, h⟩
    · rw [hcommit.entered] at hfailed
      cases hfailed
    · cases hcommit.entered.symm.trans hok
      exact h

end

end Folio.Batch
