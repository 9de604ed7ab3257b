import Folio.Proofs.Batch.Entries
import Folio.Proofs.Document.SplitForm

/-!
# What a batch delivers

A batch that succeeds has put the split document of every source into the output directory, under
distinct names, and has changed nothing else. The names and the buffers are those of the ledger at
the commit; that nothing stood in the way of the moves is either found out by the commit itself or,
where outputs may replace files, has to be known (`Succeeded`). `Succeeded.delivered` holds of any
medium whose saved documents have a form, `delivered_of_run` of document files and rehearsals.
-/

namespace Folio

open FileTree

/-- Once a directory has been made, no target in it is a directory or one of the registered
buffers. -/
def Store.LeavesRoom (directory : Path) (names : List String) (s : Store) : Prop :=
  ∀ name ∈ names, ∀ l,
    (s.tree.makeDirectories directory).2.locate (Registry.target directory name) = .ok l →
      (s.tree.makeDirectories directory).2.isDirectory l = false ∧ ¬ s.IsBuffer l

namespace Batch

variable {ρ σ κ δ : Type} {m : Medium ρ σ κ δ} {namer : Namer} {notifier : Notifier}
  {settings : Settings ρ} {output : Path} {store : Store} {time : Instant}

/-- The names of the outputs of a batch at a given time; sources are numbered from `1`. -/
def outputNames (m : Medium ρ σ κ δ) (time : Instant) (settings : Settings ρ) : List String :=
  settings.sources.mapIdx fun i source =>
    Naming.outputName settings.pattern ⟨m.name source, i + 1, time⟩

/-- The state that the loop over the sources of a batch leaves. -/
def processed (m : Medium ρ σ κ δ) (namer : Namer) (notifier : Notifier) (settings : Settings ρ)
    (store : Store) : State σ δ :=
  ((processAll m namer notifier settings 1 settings.sources ⟨settings.sources.length, 0⟩).run
    (begun settings store)).2

/-! ## The ledger at the commit -/

section
variable {g : Ledger σ} {items : List Pending} {t : FileTree}

/-- Entered outputs wait in the tree of the ledger. -/
theorem Entered.waitsIn {sources : List ρ} (h : Entered m namer settings t sources g items) :
    ∀ x ∈ items, x.WaitsIn g.tree := by
  have hbuffers := h.sound.buffers
  rw [Store.BuffersAt, h.outputs, List.forall₂_map_left_iff, List.forall₂_map_right_iff,
    List.forall₂_same] at hbuffers
  intro x hx
  rw [h.sound.tree]
  exact ⟨(hbuffers x hx).mono h.sound.free.directoriesKept,
    h.sound.free.get?_of_mem (List.mem_map_of_mem hx)⟩

theorem map_fst_file (items : List Pending) :
    (items.map Pending.file).map Prod.fst = items.map Pending.location := by
  rw [List.map_map]
  rfl

/-- The name that an entry at a given time has got. -/
theorem EntryOf.name_eq {i : Nat} {x : Pending} {source : ρ} {handle : σ}
    (h : EntryOf m (namerAt time) settings t (items.take i) source handle x)
    (hx : items[i]? = some x) :
    x.name = Naming.outputName settings.pattern ⟨m.name source, i + 1, time⟩ := by
  have hlength : (items.take i).length = i := by
    rw [List.length_take]
    have := (List.getElem?_eq_some_iff.1 hx).1
    omega
  have hname := h.name
  rw [hlength] at hname
  exact (Except.ok.inj hname).symm

/-- The names of all sources of a batch, entered at a given time. -/
theorem Entered.map_name (h : Entered m (namerAt time) settings t settings.sources g items) :
    items.map Pending.name = outputNames m time settings := by
  refine List.ext_getElem? fun i => ?_
  rw [outputNames, List.getElem?_map, List.getElem?_mapIdx]
  cases hi : settings.sources[i]? with
  | none =>
    rw [List.getElem?_eq_none_iff, ← h.length] at hi
    rw [List.getElem?_eq_none hi]
    rfl
  | some source =>
    obtain ⟨_, x, -, hx, hentry⟩ := h.entries hi
    rw [hx, Option.map_some, hentry.name_eq hx]
    rfl

/-- A batch that comes to its commit has entered its sources, and the buffers are those of the
outputs that wait. -/
theorem AtCommit.exists_entered {p : Progress} {s : State σ δ}
    {files : List (Location × Content)}
    (h : AtCommit m namer notifier settings store p s g files) :
    ∃ items, Entered m namer settings store.tree settings.sources g items ∧
      AtCommit m namer notifier settings store p s g (items.map Pending.file) := by
  obtain ⟨items, hitems⟩ := (entered_begun m namer settings store).enterAll h.entered
  exact ⟨items, hitems, { h with sound := hitems.sound }⟩

/-- A run that succeeds has come to a commit that succeeds, and that is what it leaves. -/
theorem exists_commit_of_run {p : Progress} {s' : State σ δ}
    (hrun : (run m namer notifier settings).run (.start store) = (.ok p, s')) :
    ∃ output s g items st log, settings.validate = .ok output ∧
      AtCommit m namer notifier settings store p s g (items.map Pending.file) ∧
      Entered m namer settings store.tree settings.sources g items ∧
      (Store.commit output).run s.store = (.ok (), st) ∧
      s' = { s with store := { st with log }, trace := s.trace ++ [.committing] } := by
  rcases run_course m namer notifier settings store with
    ⟨f, s, hrun', -⟩ | ⟨output, p', s, g, files, hvalid, h⟩
  · rw [hrun] at hrun'
    cases hrun'
  · obtain ⟨items, hitems, h⟩ := h.exists_entered
    obtain ⟨s₁, log, hprocess, rfl⟩ := ok_of_run hvalid hrun
    rw [run_processAndCommit output h.processed] at hprocess
    rcases hcommit : (Store.commit output).run s.store with ⟨f | ⟨⟨⟩⟩, st⟩
    · rw [hcommit] at hprocess
      cases hprocess
    · rw [hcommit] at hprocess
      cases hprocess
      exact ⟨output, s, g, items, st, log, hvalid, h, hitems, hcommit, rfl⟩

/-- The commit of a batch whose targets are clear. -/
theorem AtCommit.committed {p : Progress} {s : State σ δ} {st : Store}
    (h : AtCommit m (namerAt time) notifier settings store p s g (items.map Pending.file))
    (hitems : Entered m (namerAt time) settings store.tree settings.sources g items)
    (ht : store.tree.WellFormed) (hpattern : '/' ∉ settings.pattern.toList)
    (hroom : settings.overwrite = true →
      s.store.LeavesRoom output (outputNames m time settings))
    (hcommit : (Store.commit output).run s.store = (.ok (), st)) :
    st.registry.outputs = [] ∧
      ∃ d, Committed (s.store.tree.makeDirectories output).2 st.tree output d items := by
  refine Store.committed_of_run (h.wellFormed ht)
    (h.agrees.registry ▸ hitems.outputs) (h.agrees.tree ▸ hitems.waitsIn)
    (map_fst_file items ▸ h.sound.free.nodup) ?_ ?_ hcommit
  · intro x hx
    have hname : x.name ∈ outputNames m time settings := hitems.map_name ▸ List.mem_map_of_mem hx
    obtain ⟨i, _, hname⟩ := List.mem_mapIdx.1 hname
    rw [← hname]
    exact Naming.slash_notMem_outputName _ hpattern
  · intro hoverwrite x hx _ l hl
    have hoverwrite : settings.overwrite = true := by
      rwa [h.agrees.registry, hitems.overwrite] at hoverwrite
    have hname : x.name ∈ outputNames m time settings := hitems.map_name ▸ List.mem_map_of_mem hx
    obtain ⟨hdir, hbuffer⟩ := hroom hoverwrite x.name hname l hl
    refine ⟨hdir, fun y hy heq => hbuffer (h.isBuffer_iff.2 ?_)⟩
    rw [map_fst_file, heq]
    exact List.mem_map_of_mem hy

end

/-! ## The outcome of a batch -/

/-- A batch that has gone through from a sound tree, at a given time. The pattern of names has no
slash, and where outputs may replace files, no target is a directory or one of the batch's own
buffers. -/
structure Succeeded (m : Medium ρ σ κ δ) (time : Instant) (notifier : Notifier)
    (settings : Settings ρ) (output : Path) (store : Store) (p : Progress) (s' : State σ δ) :
    Prop where
  wellFormed : store.tree.WellFormed
  slash_notMem : '/' ∉ settings.pattern.toList
  output_eq : settings.output = some output
  run_eq : (run m (namerAt time) notifier settings).run (.start store) = (.ok p, s')
  leavesRoom : settings.overwrite = true →
    (processed m (namerAt time) notifier settings store).store.LeavesRoom output
      (outputNames m time settings)

/-- What a batch leaves that has gone through, seen from the store before it and from the store in
which the loop over the sources ended. -/
structure Delivered (m : Medium ρ σ κ δ) (Form : Settings ρ → FileTree → ρ → Content → Prop)
    (time : Instant) (settings : Settings ρ) (output : Path) (store buffers : Store) (p : Progress)
    (s' : State σ δ) : Prop where
  nodup_names : (outputNames m time settings).Nodup
  /-- Every source was opened in the tree with nothing but some buffers added, and under its name
  there is what it was split into. -/
  written : ∀ (i : Nat) (source : ρ), settings.sources[i]? = some source →
    ∃ (handle : σ) (files : List (Location × Content)) (content : Content),
      store.tree.Free files ∧ (∀ x ∈ files, buffers.IsBuffer x.1) ∧
      (openings s'.trace)[i]? = some handle ∧
      m.openSource (store.tree.withFiles files) source = .ok handle ∧
      Form settings (store.tree.withFiles files) source content ∧
      s'.store.tree.read (Registry.target output
        (Naming.outputName settings.pattern ⟨m.name source, i + 1, time⟩)) = .ok content
  /-- Nothing else has changed, but for new directories on the way to the output directory. -/
  elsewhere : ∀ l, (∀ name ∈ outputNames m time settings,
      s'.store.tree.locate (Registry.target output name) ≠ .ok l) →
    s'.store.tree.get? l = store.tree.get? l ∨
      (store.tree.get? l = none ∧ s'.store.tree.get? l = some .directory ∧
        s'.store.tree.OnWay output l)
  no_buffer : ∀ l, buffers.IsBuffer l → s'.store.tree.get? l = none
  no_output : s'.store.registry.outputs = []
  reports : reports s'.trace = reportsFrom 0 settings.sources.length settings.sources.length
  progress : p = ⟨settings.sources.length, settings.sources.length⟩

section
variable {Form : Settings ρ → FileTree → ρ → Content → Prop}

/-- What has been committed is delivered. -/
theorem AtCommit.delivered (hm : m.Saves Form) {p : Progress} {s s' : State σ δ}
    {g : Ledger σ} {items : List Pending} {d : Location}
    (h : AtCommit m (namerAt time) notifier settings store p s g (items.map Pending.file))
    (hitems : Entered m (namerAt time) settings store.tree settings.sources g items)
    (ht : store.tree.WellFormed) (htrace : s'.trace = s.trace ++ [.committing])
    (houtputs : s'.store.registry.outputs = [])
    (hcommitted : Committed (s.store.tree.makeDirectories output).2 s'.store.tree output d items) :
    Delivered m Form time settings output store s.store p s' := by
  have hbuffer : ∀ l, s.store.IsBuffer l ↔ l ∈ items.map Pending.location := fun l => by
    rw [h.isBuffer_iff, map_fst_file]
  refine ⟨hitems.map_name ▸ hitems.nodup, fun i source hi => ?_, fun l hl => ?_, fun l hl => ?_,
    houtputs, ?_, h.progress⟩
  · obtain ⟨handle, x, hhandle, hx, hentry⟩ := hitems.entries hi
    have hmem := List.mem_of_getElem? hx
    refine ⟨handle, _, x.content,
      h.sound.free.sublist ((List.take_sublist i items).map Pending.file), fun y hy => ?_, ?_,
      hentry.opened, hm hentry.opened (Medium.form_eq_ok.2 hentry.content), ?_⟩
    · obtain ⟨z, hz, rfl⟩ := List.mem_map.1 hy
      exact (hbuffer _).2 (List.mem_map_of_mem ((List.take_sublist i items).subset hz))
    · rw [htrace, openings_append, h.agrees.openings]
      exact (congrArg (·[i]?) (List.append_nil _)).trans hhandle
    · rw [← hentry.name_eq hx]
      exact (hcommitted.names_after hmem).read (hcommitted.get?_landed hitems.nodup hmem)
  · by_cases hmem : l ∈ items.map Pending.location
    · obtain ⟨x, hx, rfl⟩ := List.mem_map.1 hmem
      rw [hcommitted.get?_location hx, (h.sound.free.get?_none x.location
        (map_fst_file items ▸ hmem)).2]
      exact .inl rfl
    · have hstays := hcommitted.get?_of_ne hitems.nodup hmem fun x hx =>
        hl x.name (hitems.map_name ▸ List.mem_map_of_mem hx)
      rcases h.get?_makeDirectories ht (map_fst_file items ▸ hmem) output with
        heq | ⟨hnone, hdir, hway⟩
      · exact .inl (hstays.trans heq)
      · exact .inr ⟨hnone, hstays.trans hdir,
          hway.mono hcommitted.carried.directoriesKept (isDirectory_iff.2 hdir)⟩
  · obtain ⟨x, hx, rfl⟩ := List.mem_map.1 ((hbuffer l).1 hl)
    exact hcommitted.get?_location hx
  · rw [htrace, reports_append, h.reports]
    exact List.append_nil _

/-- **A batch that succeeds delivers**, whatever the form is that its medium saves documents in. -/
theorem Succeeded.delivered (hm : m.Saves Form) {p : Progress} {s' : State σ δ}
    (h : Succeeded m time notifier settings output store p s') :
    Delivered m Form time settings output store
      (processed m (namerAt time) notifier settings store).store p s' := by
  obtain ⟨ht, hpattern, houtput, hrun, hroom⟩ := h
  rcases run_course m (namerAt time) notifier settings store with
    ⟨f, s, hrun', -⟩ | ⟨output', p', s, g, files, hvalid, h⟩
  · rw [hrun] at hrun'
    cases hrun'
  · cases houtput.symm.trans (output_of_validate hvalid)
    obtain ⟨items, hitems, h⟩ := h.exists_entered
    have hprocessed : processed m (namerAt time) notifier settings store = s := by
      rw [processed, h.processed]
    obtain ⟨s₁, log, hprocess, rfl⟩ := ok_of_run hvalid hrun
    rw [run_processAndCommit output h.processed] at hprocess
    rcases hcommit : (Store.commit output).run s.store with ⟨f | ⟨⟨⟩⟩, st⟩
    · rw [hcommit] at hprocess
      cases hprocess
    · rw [hcommit] at hprocess
      cases hprocess
      rw [hprocessed] at hroom ⊢
      obtain ⟨houtputs, d, hcommitted⟩ := h.committed hitems ht hpattern hroom hcommit
      exact h.delivered hm hitems ht rfl houtputs hcommitted

end

/-- **A batch that succeeds delivers.** If the pattern of names has no slash and, where outputs may
replace files, no target is a directory or one of the batch's own buffers, then the names are
distinct, what each source was split into is in the output directory under its name, nothing else is
changed, no buffer is left, every step was reported in turn and the progress is complete. A document
is split into a document file (`Pdf.SplitFile`), and a rehearsed source into a text
(`Rehearsal.SavedAs`). -/
theorem delivered_of_run (time : Instant) (notifier : Notifier) (output : Path) (store : Store)
    (p : Progress) :
    (∀ {settings : Settings Pdf.Source} {s' : State Pdf.Handle Pdf.Draft},
      Succeeded Pdf.medium time notifier settings output store p s' →
        Delivered Pdf.medium Pdf.SavedAs time settings output store
          (processed Pdf.medium (namerAt time) notifier settings store).store p s') ∧
      ∀ {plan : Rehearsal.Plan} {settings : Settings Rehearsal.Source}
        {s' : State Rehearsal.Source Rehearsal.Draft},
        Succeeded (Rehearsal.medium plan) time notifier settings output store p s' →
          Delivered (Rehearsal.medium plan) Rehearsal.SavedAs time settings output store
            (processed (Rehearsal.medium plan) (namerAt time) notifier settings store).store p s' :=
  ⟨fun h => h.delivered Pdf.saves_medium, fun h => h.delivered (Rehearsal.saves_medium _)⟩

/-- A batch of two rehearsed sources, of one page and of two, that may replace files. -/
def deliverySettings : Settings Rehearsal.Source where
  sources := [⟨"a", [⟨0, 0, 800, 600⟩], none, false, false⟩,
    ⟨"b", [⟨0, 0, 600, 800⟩, ⟨1, 1, 2, 2⟩], none, false, true⟩]
  output := some ⟨.relative, ["out"]⟩
  pattern := "[FILENUMBER]-[BASENAME]"
  overwrite := true
  version := some "1.7"
  repagination := .lastFirst

/-- A document of two sheets, one of either orientation. -/
def sheetsFile : Pdf.File where
  header := "%PDF-1.47 old"
  pages := [.of "i" ⟨0, 0, 800, 600⟩ none none none, .of "ii" ⟨0, 0, 600, 800⟩ none none (some 90)]
  description := ⟨[("/Title", "T"), ("/Producer", "scan")], some "/OneColumn", none⟩
  encryption := none
  drafted := false

/-- A store with the document in it. -/
def sheetsStore : Store where
  tree :=
    { stage with entries := stage.entries ++ [(["w", "a.pdf"], .file (.document sheetsFile))] }
  buffers := 0
  registry := .empty false
  log := []

/-- A batch of the document, with its pages put into reading order. -/
def sheetsSettings : Settings Pdf.Source where
  sources := [.of (.ofText "a.pdf") none none]
  output := some ⟨.relative, ["out"]⟩
  pattern := ""
  overwrite := false
  version := none
  repagination := .lastFirst

/-- Both rehearsed sources are delivered to a directory that has to be made. -/
theorem succeeded_deliverySettings :
    let m := Rehearsal.medium .smooth
    let time : Instant := ⟨2024, 3, 9, 14, 5, 7, 0⟩
    let store : Store := ⟨stage, 0, .empty false, []⟩
    ∃ p s', Succeeded m time .silent deliverySettings ⟨.relative, ["out"]⟩ store p s' := by
  intro m time store
  have hfree : ∀ name ∈ outputNames m time deliverySettings,
      (((processed m (namerAt time) .silent deliverySettings
        store).store.tree.makeDirectories ⟨.relative, ["out"]⟩).2.locate
          (Registry.target ⟨.relative, ["out"]⟩ name)).isOk = false := by
    decide +kernel
  obtain ⟨p, hrun⟩ := Step.run_eq_ok (x := run m (namerAt time) .silent deliverySettings)
    (s := .start store) (by decide +kernel)
  refine ⟨p, _, .of_entries rfl (by decide), by decide, rfl, hrun, fun _ name hname l hl => ?_⟩
  have := hfree name hname
  rw [hl] at this
  cases this

/-- Two rehearsed sources are delivered to a directory that has to be made, and so is a document
with its title: the halves of their boxes lie there in reading order. -/
theorem delivered_of_run_two :
    let time : Instant := ⟨2024, 3, 9, 14, 5, 7, 0⟩
    let output : Path := ⟨.relative, ["out"]⟩
    let first box : Pdf.Page := { Pdf.Page.of "i" ⟨0, 0, 800, 600⟩ none none none with crop := box }
    let second box : Pdf.Page :=
      { Pdf.Page.of "ii" ⟨0, 0, 600, 800⟩ none none (some 90) with crop := box }
    (∃ p s', Succeeded (Rehearsal.medium .smooth) time .silent deliverySettings output
        ⟨stage, 0, .empty false, []⟩ p s' ∧ p = ⟨2, 2⟩ ∧
      s'.store.tree.read ⟨.relative, ["out", "1-a.pdf"]⟩ = .ok (.text ("\n".intercalate
        ["version 1.7", "title a", "a#1 [400.0, 0.0, 800.0, 600.0]",
          "a#1 [0.0, 0.0, 400.0, 600.0]"])) ∧
      s'.store.tree.read ⟨.relative, ["out", "2-b.pdf"]⟩ = .ok (.text ("\n".intercalate
        ["version 1.7", "title b", "b#1 [0.0, 0.0, 600.0, 400.0]",
          "b#2 [1.0, 1.0, 1.5, 2.0]", "b#2 [1.5, 1.0, 2.0, 2.0]",
          "b#1 [0.0, 400.0, 600.0, 800.0]"]))) ∧
    ∃ p s' f, Succeeded Pdf.medium time .silent sheetsSettings output sheetsStore p s' ∧
      p = ⟨1, 1⟩ ∧
      s'.store.tree.read ⟨.relative, ["out", "a.pdf"]⟩ = .ok (.document f) ∧
      f.header = "%PDF-1.4" ∧
      f.pages = [first ⟨400, 0, 800, 600⟩, second ⟨0, 400, 600, 800⟩,
        second ⟨0, 0, 600, 400⟩, first ⟨0, 0, 400, 600⟩] ∧
      f.description.info.lookup "/Title" = some "T" := by
  intro time output first second
  obtain ⟨p, s', hsucceeded⟩ := succeeded_deliverySettings
  obtain ⟨p₂, hrun₂⟩ := Step.run_eq_ok (x := run Pdf.medium (namerAt time) .silent sheetsSettings)
    (s := .start sheetsStore) (by decide +kernel)
  have hsucceeded₂ : Succeeded Pdf.medium time .silent sheetsSettings output sheetsStore p₂ _ :=
    ⟨.of_entries rfl (by decide), by decide, rfl, hrun₂, nofun⟩
  have hdelivered := (delivered_of_run time .silent output _ p).2 hsucceeded
  have hdelivered₂ := (delivered_of_run time .silent output _ p₂).1 hsucceeded₂
  obtain ⟨_, _, _, -, -, -, -, ⟨lines₁, rfl, hlines₁⟩, hread₁⟩ := hdelivered.written 0 _ rfl
  obtain ⟨_, _, _, -, -, -, -, ⟨lines₂, rfl, hlines₂⟩, hread₂⟩ := hdelivered.written 1 _ rfl
  obtain ⟨_, _, _, hfree, -, -, -, ⟨file, f, hfile, rfl, hf⟩, hread₃⟩ :=
    hdelivered₂.written 0 _ rfl
  have hsource : sheetsStore.tree.read ⟨.relative, ["a.pdf"]⟩ = .ok (.document sheetsFile) := rfl
  cases hfile.symm.trans (hfree.read hsource)
  obtain rfl : lines₁ = ["a#1 [400.0, 0.0, 800.0, 600.0]", "a#1 [0.0, 0.0, 400.0, 600.0]"] :=
    hlines₁.eq_of_map_some (by decide +kernel)
  obtain rfl : lines₂ = ["b#1 [0.0, 0.0, 600.0, 400.0]", "b#2 [1.0, 1.0, 1.5, 2.0]",
      "b#2 [1.5, 1.0, 2.0, 2.0]", "b#1 [0.0, 400.0, 600.0, 800.0]"] :=
    hlines₂.eq_of_map_some (by decide +kernel)
  have hpages : f.pages = [first ⟨400, 0, 800, 600⟩, second ⟨0, 400, 600, 800⟩,
      second ⟨0, 0, 600, 400⟩, first ⟨0, 0, 400, 600⟩] :=
    hf.pages.eq_of_map_some rfl
  have htitle : f.description.info.lookup "/Title" = some "T" :=
    (hf.lookup_info "/Title").trans (by decide +kernel)
  have hname₁ : Registry.target output (Naming.outputName deliverySettings.pattern
      ⟨"a", (0 : Nat) + 1, time⟩) = ⟨.relative, ["out", "1-a.pdf"]⟩ := by decide +kernel
  have hname₂ : Registry.target output (Naming.outputName deliverySettings.pattern
      ⟨"b", (1 : Nat) + 1, time⟩) = ⟨.relative, ["out", "2-b.pdf"]⟩ := by decide +kernel
  have hname₃ : Registry.target output (Naming.outputName sheetsSettings.pattern
      ⟨"a.pdf", (0 : Nat) + 1, time⟩) = ⟨.relative, ["out", "a.pdf"]⟩ := by decide +kernel
  rw [← hname₁, ← hname₂, ← hname₃]
  exact ⟨⟨p, s', hsucceeded, hdelivered.progress, hread₁, hread₂⟩, p₂, _, f, hsucceeded₂,
    hdelivered₂.progress, hread₃, hf.header.trans (by decide +kernel), hpages, htitle⟩

end Batch

end Folio
