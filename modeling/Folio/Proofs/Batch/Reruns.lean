import Folio.Proofs.Batch.Failing
import Folio.Proofs.Document.Resplitting

/-!
# Running a batch on its own output

A batch over one document that succeeds has put the split document somewhere (`landed_of_run`), and
the next batch can take it as its source. `Reruns` is a number of such runs one after the other. By
induction on them the last output is the first document, split as often (`Reruns.splittable`); what
that comes to is told in `Pdf.File.SplitTimes`. No document on the way stops a run
(`committing_or_hindrance`).
-/

namespace Folio.Batch

open FileTree

variable {ρ σ κ δ : Type} {m : Medium ρ σ κ δ} {namer : Namer} {notifier : Notifier}

/-! ## One output -/

/-- A commit of one output that succeeds has put it somewhere. -/
theorem landed_of_commit {s st : Store} {x : Pending} {output : Path} (ht : s.tree.WellFormed)
    (houtputs : s.registry.outputs = [x.output]) (hwaits : x.WaitsIn s.tree)
    (hcommit : (Store.commit output).run s = (.ok (), st)) :
    ∃ b, s.landings output = [(b, x.content)] ∧ st.tree.get? b = some (.file x.content) ∧
      st.tree.WellFormed := by
  have hone : s.registry.outputs = [x].map Pending.output := houtputs
  obtain ⟨-, hcleared, hlength, hcarried⟩ := Store.carried_of_run ht hone (by simpa using hwaits)
    (List.nodup_singleton x.location) hcommit
  have ht' := hcarried.wellFormed (makes_makeDirectories ht output).wellFormed
  have hfile := (Store.waitsIn_makeDirectories ht output hwaits).get?_eq
  rw [hcleared.landings_eq, houtputs]
  change List.length (landings _ _ [x.output]) = 1 at hlength
  change Carried _ [x.location] (landings _ _ [x.output]) _ at hcarried
  obtain ⟨⟨b, c⟩, hlandings⟩ := List.length_eq_one_iff.1 hlength
  rw [hlandings] at hcarried ⊢
  cases hcarried with
  | cons hfile' hb hup hmoved hrest =>
    cases hrest
    rw [hfile] at hfile'
    cases hfile'
    exact ⟨b, rfl, by rw [hmoved.get?_eq, if_pos rfl], ht'⟩

/-- What a batch over one source leaves that has gone through: its output has landed somewhere, and
that is what the source was split into. -/
theorem landed_of_run {settings : Settings ρ} {output : Path} {store : Store} {source : ρ}
    {p : Progress} {s' : State σ δ} (ht : store.tree.WellFormed)
    (hsources : settings.sources = [source]) (houtput : settings.output = some output)
    (hrun : (run m namer notifier settings).run (.start store) = (.ok p, s')) :
    ∃ handle x b, EntryOf m namer settings store.tree [] source handle x ∧
      (processed m namer notifier settings store).store.landings output = [(b, x.content)] ∧
      s'.store.tree.get? b = some (.file x.content) ∧ s'.store.tree.WellFormed := by
  obtain ⟨output', s, g, items, st, log, hvalid, h, hitems, hcommit, rfl⟩ :=
    exists_commit_of_run hrun
  cases houtput.symm.trans (output_of_validate hvalid)
  have hprocessed : processed m namer notifier settings store = s := by
    rw [processed, h.processed]
  have hlength : items.length = 1 := by rw [hitems.length, hsources]; rfl
  obtain ⟨x, rfl⟩ := List.length_eq_one_iff.1 hlength
  obtain ⟨handle, x', -, hx, hentry⟩ := hitems.entries (i := 0) (by rw [hsources]; rfl)
  cases hx
  obtain ⟨b, hlandings, hlanded, ht'⟩ := landed_of_commit (h.wellFormed ht)
    (h.agrees.registry ▸ hitems.outputs)
    (h.agrees.tree ▸ hitems.waitsIn x (List.mem_singleton_self x)) hcommit
  exact ⟨handle, x, b, hentry, hprocessed ▸ hlandings, hlanded, ht'⟩

/-- A run that comes to its commit begins it, whatever comes of that. -/
theorem committing_of_atCommit {settings : Settings ρ} {output : Path} {store : Store}
    {p : Progress} {s : State σ δ} {g : Ledger σ} {files : List (Location × Content)}
    (hvalid : settings.validate = .ok output)
    (h : AtCommit m namer notifier settings store p s g files) :
    .committing ∈ ((run m namer notifier settings).run (.start store)).2.trace := by
  obtain ⟨st, hst⟩ := Run.run_orElseDo_onStore
    (processAndCommit m namer notifier settings output) Store.discard (begun settings store)
  have htrace := congrArg State.trace hst
  rw [run_processAndCommit output h.processed] at htrace
  have hmem : .committing ∈ s.trace ++ [Event.committing] := by simp
  rw [run_of_validate hvalid]
  rcases hrun : (Run.orElseDo (processAndCommit m namer notifier settings output)
    (Run.onStore Store.discard)).run (begun settings store) with ⟨f | p', s'⟩
  · rw [hrun] at htrace
    rw [Step.run_bind_error hrun]
    exact htrace ▸ hmem
  · rw [hrun] at htrace
    rw [Step.run_bind_ok hrun, Step.run_bind_ok (Run.run_note _ s')]
    exact htrace ▸ hmem

/-! ## Documents that can be split -/

/-- The settings of a batch over one source that keeps version and order. -/
structure Plain (settings : Settings ρ) (source : ρ) (output : Path) : Prop where
  sources : settings.sources = [source]
  output : settings.output = some output
  version : settings.version = none
  repagination : settings.repagination = .none

/-- A document that can be opened, that grants copying and whose pages can be cut. -/
structure Splittable (t : FileTree) (source : Pdf.Source) (file : Pdf.File) : Prop where
  opens : ∃ handle, source.openIn t = .ok handle ∧ handle.file = some file ∧
    handle.ensure .copyAndExtract = .ok ()
  trims : ∀ p ∈ file.pages, ¬ p.trim.Degenerate

section
variable {settings : Settings Pdf.Source} {source : Pdf.Source} {output : Path} {store : Store}
  {file : Pdf.File}

/-- A document that is opened is read. -/
theorem Splittable.read {t : FileTree} (h : Splittable t source file) :
    t.read source.path = .ok (.document file) := by
  obtain ⟨handle, hopen, hfile, -⟩ := h.opens
  obtain ⟨file', hread, hunlock⟩ := Pdf.openIn_eq_ok.1 hopen
  rw [Pdf.file_of_unlock hunlock] at hfile
  cases hfile
  exact hread

/-- A document whose pages can be cut is split into any draft. -/
theorem exists_assemble {handle : Pdf.Handle} (hplain : Plain settings source output)
    (hfile : handle.file = some file) (htrims : ∀ p ∈ file.pages, ¬ p.trim.Degenerate)
    (blank : Pdf.Draft) : ∃ d, Pdf.medium.assemble settings handle blank = .ok d := by
  have hpages : Pdf.medium.pages handle = (file.pages.map Pdf.Page.forSplitting).map .ok := by
    simp [Pdf.medium, Pdf.Handle.pages, hfile]
  have hsound : ∀ p ∈ file.pages.map Pdf.Page.forSplitting, ¬ p.box.Degenerate := by
    intro p hp
    obtain ⟨page, hpage, rfl⟩ := List.mem_map.1 hp
    exact htrims page hpage
  cases h : Pdf.medium.assemble settings handle blank with
  | ok d => exact ⟨d, rfl⟩
  | error f =>
    rcases error_of_bind h with hset | ⟨versioned, -, h⟩
    · rw [hplain.version] at hset
      cases hset
    rcases error_of_bind h with hdescribe | ⟨described, -, h⟩
    · change Medium.kept (Pdf.Draft.describe handle versioned) = .error f at hdescribe
      rw [Pdf.Draft.describe, hfile] at hdescribe
      cases hdescribe
    rcases error_of_bind h with hleaves | ⟨split, -, h⟩
    · obtain ⟨b, hsplit, -⟩ := Pdf.pageView.run_splitDocument hpages hsound ⟨described, []⟩
      have hyields := yields_splitDocument Pdf.medium handle ⟨described, []⟩
      rw [hleaves] at hyields
      obtain ⟨b', hsplit'⟩ := hyields
      rw [hsplit] at hsplit'
      cases hsplit'
    · obtain ⟨d, hmoves⟩ := Pdf.pageView.moveAll_ok settings.repagination split
      rw [hmoves] at h
      cases h

/-- What can still stop a batch over a document that can be split, before its commit: the name, the
temporary buffer or the notifier. -/
inductive Hindrance (namer : Namer) (notifier : Notifier) (settings : Settings Pdf.Source)
    (source : Pdf.Source) (store : Store) : Failure → Prop where
  | naming {f : Failure} (h : namer settings.pattern source.name 1 = .error f) :
    Hindrance namer notifier settings source store f
  | buffer {e : FileError} (h : store.tree.createFresh
      (Buffer.text (Store.nextNumber store.tree ".pdf" store.buffers) ".pdf") = .error e) :
    Hindrance namer notifier settings source store (.file e)
  | notifier {f : Failure} (current : Int) (h : (notifier current 1).2 = .error f) :
    Hindrance namer notifier settings source store f

/-- A document that can be split is entered, unless there is no name or no buffer for it. -/
theorem hindrance_of_enter {f : Failure} (hplain : Plain settings source output)
    (hsplit : Splittable store.tree source file)
    (h : (Ledger.begun settings store).enter Pdf.medium namer settings 1 source = .error f) :
    Hindrance namer notifier settings source store f := by
  obtain ⟨handle, hopen, hfile, hgrants⟩ := hsplit.opens
  obtain ⟨d, hd⟩ := exists_assemble hplain hfile hsplit.trims .empty
  rcases error_of_bind h with h | ⟨handle', hopen', h⟩
  · cases hopen.symm.trans h
  cases hopen.symm.trans hopen'
  rcases error_of_bind h with h | ⟨-, -, h⟩
  · cases hgrants.symm.trans h
  rcases error_of_bind h with h | ⟨blank, hblank, h⟩
  · cases h
  cases hblank
  rcases error_of_bind h with h | ⟨_, -, h⟩
  · cases hcreate : (Ledger.begun settings store : Ledger Pdf.Handle).tree.createFresh
        (Buffer.text (Ledger.begun settings store : Ledger Pdf.Handle).number ".pdf") with
    | error e =>
      rw [deposit_of_refused hd hcreate] at h
      cases h
      exact .buffer hcreate
    | ok fresh =>
      have hcontent : Pdf.medium.content (Pdf.medium.sent d) = .ok (.document d.sent.toFile) := rfl
      obtain ⟨l, -, -, hdeposit⟩ := deposit_of_created hd hcontent hcreate
      rw [hdeposit] at h
      rcases error_of_bind h with h | ⟨n, -, h⟩
      · exact .naming h
      · simp [Ledger.begun, Ledger.start, Registry.empty, Registry.add, Registry.names,
          Except.map] at h
  · cases h

/-- **Nothing about the document stops a batch** over a document that can be split: it comes to its
commit, unless there is no name or no buffer to be had or the notifier fails. -/
theorem committing_or_hindrance (hplain : Plain settings source output)
    (hsplit : Splittable store.tree source file) :
    .committing ∈ ((run Pdf.medium namer notifier settings).run (.start store)).2.trace ∨
      ∃ f, ((run Pdf.medium namer notifier settings).run (.start store)).1 = .error f ∧
        Hindrance namer notifier settings source store f := by
  rcases run_course Pdf.medium namer notifier settings store with
    ⟨f, s, hrun, -, -, hcause⟩ | ⟨output', p, s, g, files, hvalid, h⟩
  · refine .inr ⟨f, by rw [hrun], ?_⟩
    rw [hplain.sources] at hcause
    rcases hcause with hinvalid | henter | ⟨current, hnotifier⟩
    · have hsource : source ∈ settings.sources := hplain.sources ▸ List.mem_singleton_self source
      cases hinvalid.symm.trans (validate_eq_ok hsource hplain.output)
    · rcases error_of_bind henter with henter | ⟨g, -, henter⟩
      · exact hindrance_of_enter hplain hsplit henter
      · cases henter
    · exact .notifier current hnotifier
  · exact .inl (committing_of_atCommit hvalid h)

end

/-! ## Runs on the output of runs -/

/-- A number of runs one after the other, from a source and a store, with the source and the store
that they lead to. -/
inductive Reruns (source : Pdf.Source) (store : Store) : Nat → Pdf.Source → Store → Prop where
  | start : Reruns source store 0 source store
  /-- One run more: over the source that the runs before it lead to, without a version of its own
  and without another order. It succeeds, and the next source is the file that its only output has
  become, in the tree that it leaves. -/
  | next {k : Nat} {source₁ source₂ : Pdf.Source} {store₁ store₂ : Store} {namer : Namer}
    {notifier : Notifier} {settings : Settings Pdf.Source} {output : Path} {p : Progress}
    {s' : State Pdf.Handle Pdf.Draft} {l : Location} {c : Content}
    (before : Reruns source store k source₁ store₁) (hplain : Plain settings source₁ output)
    (hrun : (run Pdf.medium namer notifier settings).run (.start store₁) = (.ok p, s'))
    (htree : store₂.tree = s'.store.tree)
    (hlandings : (processed Pdf.medium namer notifier settings store₁).store.landings output =
      [(l, c)])
    (hpath : source₂.path.hasNul = false) (hlocate : store₂.tree.locate source₂.path = .ok l) :
    Reruns source store (k + 1) source₂ store₂

section
variable {source source' : Pdf.Source} {store store' : Store} {file : Pdf.File} {k : Nat}

/-- A file that was written by a run can be opened and grants everything. -/
theorem splittable_of_read {t : FileTree} (hread : t.read source.path = .ok (.document file))
    (hopen : file.encryption = none) (htrims : ∀ p ∈ file.pages, ¬ p.trim.Degenerate) :
    Splittable t source file := by
  have hunlock : source.unlock file = .ok ⟨source.name, false, some file, none⟩ := by
    rw [Pdf.Source.unlock, hopen]
  refine ⟨⟨_, Pdf.openIn_eq_ok.2 ⟨file, hread, hunlock⟩, rfl, ?_⟩, htrims⟩
  simp [Pdf.Handle.ensure, hopen]

/-- **One run more** splits the file once more. The induction is on the runs. -/
theorem Reruns.splittable (h : Reruns source store k source' store')
    (ht : store.tree.WellFormed) (hsplit : Splittable store.tree source file) :
    store'.tree.WellFormed ∧ Splittable store'.tree source' (Pdf.File.split^[k] file) := by
  induction h with
  | start => exact ⟨ht, hsplit⟩
  | @next k source₁ source₂ store₁ store₂ namer notifier settings output p s' l c before hplain
      hrun htree hlandings hpath hlocate ih =>
    obtain ⟨ht₁, hsplit₁⟩ := ih
    obtain ⟨handle, x, b, hentry, hlanded, hget, ht'⟩ :=
      landed_of_run ht₁ hplain.sources hplain.output hrun
    cases hlandings.symm.trans hlanded
    obtain ⟨blank, d, hblank, hassemble, hcontent⟩ := hentry.content
    obtain ⟨handle', hopen', hfile', -⟩ := hsplit₁.opens
    have hopen := hentry.opened
    rw [List.map_nil, withFiles_nil] at hopen
    cases hopen.symm.trans hopen'
    have hdocument := Pdf.eq_split_of_isSplitForm
      (Pdf.draftView.isSplitForm_of_assemble hblank hassemble hcontent) hplain.version
      hplain.repagination hfile'
    have hread : store₂.tree.read source₂.path =
        .ok (.document (Pdf.File.split^[k + 1] file)) := by
      rw [Function.iterate_succ_apply', ← hdocument]
      exact read_eq_ok.2 ⟨hpath, l, hlocate, htree ▸ hget⟩
    refine ⟨htree ▸ ht', splittable_of_read hread ?_
      (Pdf.File.forall_trim_iterate (P := fun box => ¬ box.Degenerate) hsplit.trims (k + 1))⟩
    rw [Function.iterate_succ_apply']
    rfl

/-- **Running a batch on its own output** cuts a document once and for all. After `k` runs, at least
one, the output has `2 ^ k` pages for each page of the document, all of them halves of its trim box,
and its header and its description do not depend on `k` (`Pdf.File.SplitTimes`). And one more run
over it comes to its commit, unless there is no name or no buffer to be had or the notifier
fails. -/
theorem split_of_reruns (ht : store.tree.WellFormed) (hsplit : Splittable store.tree source file)
    (hheaded : file.Headed) (hreruns : Reruns source store k source' store') :
    (1 ≤ k → ∃ file', store'.tree.read source'.path = .ok (.document file') ∧
        Pdf.File.SplitTimes k file file') ∧
      ∀ {namer notifier settings output}, Plain settings source' output →
        .committing ∈ ((run Pdf.medium namer notifier settings).run (.start store')).2.trace ∨
          ∃ f, ((run Pdf.medium namer notifier settings).run (.start store')).1 = .error f ∧
            Hindrance namer notifier settings source' store' f := by
  obtain ⟨-, hsplit'⟩ := hreruns.splittable ht hsplit
  refine ⟨fun hk => ?_, fun hplain => committing_or_hindrance hplain hsplit'⟩
  obtain ⟨k, rfl⟩ := Nat.exists_eq_add_of_le' hk
  exact ⟨_, hsplit'.read, hheaded.splitTimes k⟩

/-- Whether there is one run more can be computed. -/
theorem Reruns.next_of_isOk {source₁ source₂ : Pdf.Source} {store₁ : Store} (namer : Namer)
    (notifier : Notifier) (settings : Settings Pdf.Source) (output : Path) (l : Location)
    (before : Reruns source store k source₁ store₁) (hplain : Plain settings source₁ output)
    (hok : ((run Pdf.medium namer notifier settings).run (.start store₁)).1.isOk = true)
    (hlandings : ((processed Pdf.medium namer notifier settings store₁).store.landings
      output).map Prod.fst = [l])
    (hpath : source₂.path.hasNul = false)
    (hlocate : ((run Pdf.medium namer notifier settings).run
      (.start store₁)).2.store.tree.locate source₂.path = .ok l) :
    Reruns source store (k + 1) source₂
      ((run Pdf.medium namer notifier settings).run (.start store₁)).2.store := by
  obtain ⟨p, hrun⟩ := Step.run_eq_ok hok
  obtain ⟨⟨l', c⟩, hlanded, rfl⟩ := List.map_eq_singleton_iff.1 hlandings
  exact .next before hplain hrun rfl hlanded hpath hlocate

/-- Settings that put the output of one source into a directory under the name of the source. -/
def rerunSettings (source : Pdf.Source) (output : String) : Settings Pdf.Source where
  sources := [source]
  output := some (.ofText output)
  pattern := ""
  overwrite := false
  version := none
  repagination := .none

/-- The document is split, and its output is split again: there are two copies of each half. -/
theorem split_of_reruns_twice :
    let source : Pdf.Source := .of (.ofText "a.pdf") none none
    let source' : Pdf.Source := .of (.ofText "twice/a.pdf") none none
    let first box : Pdf.Page := { Pdf.Page.of "i" ⟨0, 0, 800, 600⟩ none none none with crop := box }
    let second box : Pdf.Page :=
      { Pdf.Page.of "ii" ⟨0, 0, 600, 800⟩ none none (some 90) with crop := box }
    sheetsStore.tree.WellFormed ∧ Splittable sheetsStore.tree source sheetsFile ∧
      sheetsFile.Headed ∧
      ∃ store' file', Reruns source sheetsStore 2 source' store' ∧
        store'.tree.read source'.path = .ok (.document file') ∧ file'.header = "%PDF-1.4" ∧
        file'.pages =
          [first ⟨0, 0, 400, 600⟩, first ⟨400, 0, 800, 600⟩, first ⟨0, 0, 400, 600⟩,
            first ⟨400, 0, 800, 600⟩, second ⟨0, 400, 600, 800⟩, second ⟨0, 0, 600, 400⟩,
            second ⟨0, 400, 600, 800⟩, second ⟨0, 0, 600, 400⟩] ∧
        file'.description =
          ⟨[("/Producer", "scan"), ("/Title", "T")], some "/OneColumn", none⟩ := by
  intro source source' first second
  have ht : sheetsStore.tree.WellFormed := .of_entries rfl (by decide)
  have hread : sheetsStore.tree.read source.path = .ok (.document sheetsFile) := rfl
  have hsplit : Splittable sheetsStore.tree source sheetsFile :=
    splittable_of_read hread rfl (by decide +kernel)
  have hheaded : sheetsFile.Headed := ⟨by decide, by decide, by simp [sheetsFile]⟩
  have honce : Reruns source sheetsStore 1 (.of (.ofText "once/a.pdf") none none) _ :=
    Reruns.next_of_isOk (namerAt ⟨2024, 3, 9, 14, 5, 7, 0⟩) .silent (rerunSettings source "once")
      (.ofText "once") ["w", "once", "a.pdf"] .start ⟨rfl, rfl, rfl, rfl⟩ (by decide +kernel)
      (by decide +kernel) (by decide +kernel) (by decide +kernel)
  have htwice : Reruns source sheetsStore 2 source' _ :=
    honce.next_of_isOk (namerAt ⟨2024, 3, 9, 14, 5, 8, 0⟩) .silent
      (rerunSettings (.of (.ofText "once/a.pdf") none none) "twice") (.ofText "twice")
      ["w", "twice", "a.pdf"] ⟨rfl, rfl, rfl, rfl⟩ (by decide +kernel) (by decide +kernel)
      (by decide +kernel) (by decide +kernel)
  obtain ⟨file', hread', htimes⟩ := (split_of_reruns ht hsplit hheaded htwice).1 (by decide)
  have hcut₁ : (⟨0, 0, 800, 600⟩ : Box Float).Halved
      (⟨.left, ⟨0, 0, 400, 600⟩⟩, ⟨.right, ⟨400, 0, 800, 600⟩⟩) := by decide +kernel
  have hcut₂ : (⟨0, 0, 600, 800⟩ : Box Float).Halved
      (⟨.top, ⟨0, 400, 600, 800⟩⟩, ⟨.bottom, ⟨0, 0, 600, 400⟩⟩) := by decide +kernel
  refine ⟨ht, hsplit, hheaded, _, file', htwice, hread', ?_, List.ext_getElem? fun j => ?_,
    htimes.description.trans (by decide +kernel)⟩
  · rw [← String.toList_inj, htimes.header]
    decide +kernel
  · match j with
    | 0 => exact htimes.getElem?_of_halved (first _) rfl hcut₁
    | 1 => exact htimes.getElem?_of_halved (first _) rfl hcut₁
    | 2 => exact htimes.getElem?_of_halved (first _) rfl hcut₁
    | 3 => exact htimes.getElem?_of_halved (first _) rfl hcut₁
    | 4 => exact htimes.getElem?_of_halved (second _) rfl hcut₂
    | 5 => exact htimes.getElem?_of_halved (second _) rfl hcut₂
    | 6 => exact htimes.getElem?_of_halved (second _) rfl hcut₂
    | 7 => exact htimes.getElem?_of_halved (second _) rfl hcut₂
    | j + 8 =>
      have hlength : file'.pages.length = 8 := htimes.length_pages
      rw [List.getElem?_eq_none (by omega)]
      rfl

end

end Folio.Batch
