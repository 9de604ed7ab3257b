import Folio.Proofs.Batch.Failing
import Folio.Proofs.Naming.Numbering

/-!
# Numbered outputs

With a numbered pattern no output of a batch is ever refused over its name. The names in the
registry have the numbers of the sources before, so the next name is none of them
(`Entered.notMem_names`); every name can be added when its turn comes, and no run over documents
ends with a name that is taken (`batch_of_numbered`). The time may go on between the sources, as
long as timestamps keep their width.
-/

namespace Folio.Batch

open FileTree Naming

variable {ρ σ κ δ : Type} {m : Medium ρ σ κ δ} {notifier : Notifier} {settings : Settings ρ}
  {clock : Int → Instant} {t : FileTree} {g : Ledger σ}

/-- Names outputs by a clock, which is read once for each source. -/
def namerBy (clock : Int → Instant) : Namer := fun pattern source number =>
  .ok (outputName pattern ⟨source, number, clock number⟩)

/-- The timestamps of a clock all have the same width. -/
def SteadyWidth (clock : Int → Instant) : Prop :=
  ∀ i j, (clock i).timestampChars.length = (clock j).timestampChars.length

theorem steadyWidth_const (time : Instant) : SteadyWidth fun _ => time := fun _ _ => rfl

/-! ## Registered names -/

/-- A registered name is the one of a source before, with its number. -/
theorem Entered.exists_number {namer : Namer} {before : List ρ} {items : List Pending}
    (hg : Entered m namer settings t before g items) {name : String}
    (h : name ∈ g.registry.names) :
    ∃ (i : Nat) (source : ρ), i < before.length ∧
      namer settings.pattern (m.name source) (i + 1) = .ok name := by
  rw [Registry.names, hg.outputs, List.map_map] at h
  obtain ⟨x, hx, rfl⟩ := List.mem_map.1 h
  obtain ⟨i, hi, hget⟩ := List.getElem_of_mem hx
  have hlt : i < before.length := hg.length ▸ hi
  obtain ⟨_, x', -, hx', hentry⟩ := hg.entries (List.getElem?_eq_getElem hlt)
  rw [List.getElem?_eq_getElem hi, hget] at hx'
  cases hx'
  have hname := hentry.name
  rw [List.length_take, Nat.min_eq_left (Nat.le_of_lt hi)] at hname
  exact ⟨i, before[i], hlt, hname⟩

/-- The next name of a numbered pattern is not registered. -/
theorem Entered.notMem_names {before : List ρ} {items : List Pending}
    (hg : Entered m (namerBy clock) settings t before g items)
    (hpattern : Numbered settings.pattern) (hclock : SteadyWidth clock) (source : String) :
    outputName settings.pattern ⟨source, before.length + 1, clock (before.length + 1)⟩ ∉
      g.registry.names := by
  intro hmem
  obtain ⟨i, source', hi, hname⟩ := hg.exists_number hmem
  have hnumber : ((i : Int) + 1) = before.length + 1 :=
    number_eq_of_outputName_eq hpattern (hclock _ _) (Except.ok.inj hname)
  omega

/-- A name that is not registered can be added. -/
theorem run_add_of_notMem {s : Store} {name : String} (buffer : Path)
    (h : name ∉ s.registry.names) : ((Store.add buffer name).run s).1 = .ok () := by
  rw [Store.run_add, Registry.add, if_neg h]

/-! ## Failures over a name -/

/-- A source of a batch of documents that is refused over a name has a name that is registered. -/
theorem mem_names_of_enter {settings : Settings Pdf.Source} {g : Ledger Pdf.Handle}
    {source : Pdf.Source} {namer : Namer} {number : Int} {n name : String}
    (hname : namer settings.pattern source.name number = .ok n)
    (h : g.enter Pdf.medium namer settings number source = .error (.repeatedName name)) :
    n ∈ g.registry.names := by
  rcases error_of_bind h with hopen | ⟨handle, hopen, h⟩
  · change source.openIn g.tree = _ at hopen
    unfold Pdf.Source.openIn at hopen
    split at hopen
    · cases hopen
    · cases hopen
    · cases hopen
    · unfold Pdf.Source.unlock at hopen
      split at hopen
      · cases hopen
      · split at hopen <;> cases hopen
  obtain ⟨file, -, hunlock⟩ := Pdf.openIn_eq_ok.1 hopen
  rcases error_of_bind h with hensure | ⟨⟨⟩, hensure, h⟩
  · cases Pdf.guarded_medium.denied_eq hensure
  rcases error_of_bind h with hblank | ⟨blank, hblank, h⟩
  · cases hblank
  rcases error_of_bind h with hdeposit | ⟨_, -, h⟩
  · rcases error_of_bind hdeposit with hd | ⟨d, hd, hdeposit⟩
    · rcases assemble_error (Pdf.file_of_unlock hunlock) hd with hunknown | ⟨box, hbox⟩
      · unfold Settings.checkVersion at hunknown
        split at hunknown
        · cases hunknown
        · split at hunknown <;> cases hunknown
      · cases hbox
    dsimp only at hdeposit
    cases hcreate : g.tree.createFresh
        (Buffer.text (Store.nextNumber g.tree ".pdf" g.buffers) ".pdf") with
    | error e =>
      rw [hcreate] at hdeposit
      cases hdeposit
    | ok tree =>
      rw [hcreate] at hdeposit
      rcases error_of_bind hdeposit with hcreated | ⟨_, hcreated, hdeposit⟩
      · cases hcreated
      cases hcreated
      rcases error_of_bind hdeposit with hstow | ⟨_, -, hdeposit⟩
      · rw [show namer settings.pattern (Pdf.medium.name source) number = .ok n from hname] at hstow
        exact (stow_error hcreate hstow).2
      · cases hdeposit
  · cases h

/-- No commit fails over a name. -/
theorem commit_ne_repeatedName (directory : Path) (s : Store) (name : String) :
    ((Store.commit directory).run s).1 ≠ .error (.repeatedName name) := by
  cases hmade : (s.tree.makeDirectories directory).1 with
  | error e =>
    rw [Store.run_commit_of_unmade hmade]
    nofun
  | ok u =>
    by_cases hcleared : Store.Cleared directory s
    · rw [Store.run_commit_of_cleared hcleared]
      rcases hmoves : (Store.moveAll directory s.registry.outputs).run
        { s with tree := (s.tree.makeDirectories directory).2 } with ⟨f | ⟨⟨⟩⟩, s₁⟩
      · obtain ⟨output, -, t, e, -, rfl⟩ := Store.exists_refused_of_run_moveAll hmoves
        rw [Step.run_bind_error hmoves]
        cases e <;> nofun
      · rw [Step.run_bind_ok hmoves]
        nofun
    · have hoverwrite : s.registry.overwrite = false := by
        by_contra hgo
        exact hcleared ⟨hmade, fun h => absurd h hgo⟩
      have hrun := Store.run_commit_of_targets hmade hoverwrite
      split at hrun
      · rw [hrun]
        nofun
      · exact absurd hrun hcleared
      · rw [hrun]
        nofun

/-! ## Batches -/

/-- What a numbered pattern and a clock guarantee. -/
structure NeverTaken (pattern : String) (clock : Int → Instant) : Prop where
  /-- Whatever has been processed, the name of the next source can be added. -/
  add : ∀ {ρ σ κ δ : Type} (m : Medium ρ σ κ δ) (notifier : Notifier) (settings : Settings ρ)
    (store : Store) (before after : List ρ) (source : ρ) (p : Progress) (s : State σ δ),
    settings.pattern = pattern → settings.sources = before ++ source :: after →
    (processAll m (namerBy clock) notifier settings 1 before ⟨settings.sources.length, 0⟩).run
      (begun settings store) = (.ok p, s) →
    ∀ (buffer : Path) (st : Store), st.registry = s.store.registry →
      ((Store.add buffer (outputName pattern
        ⟨m.name source, before.length + 1, clock (before.length + 1)⟩)).run st).1 = .ok ()
  /-- No batch of documents ends over a name, unless the notifier ends it so. -/
  ending : ∀ (notifier : Notifier) (settings : Settings Pdf.Source) (store : Store)
    (name : String), settings.pattern = pattern →
    (∀ current total, (notifier current total).2 ≠ .error (.repeatedName name)) →
    ((run Pdf.medium (namerBy clock) notifier settings).run (.start store)).1 ≠
      .error (.repeatedName name)

/-- What the loop has registered when it comes to a source. -/
theorem exists_entered_of_processAll {namer : Namer} {store : Store} {before after : List ρ}
    {p : Progress} {s : State σ δ} (hsources : settings.sources = before ++ after)
    (hrun : (processAll m namer notifier settings 1 before ⟨settings.sources.length, 0⟩).run
      (begun settings store) = (.ok p, s)) :
    ∃ g items, Agrees g s ∧ Entered m namer settings store.tree before g items := by
  have hlength : settings.sources.length = before.length + after.length := by
    rw [hsources, List.length_append]
  obtain ⟨s', -, ⟨g, hrun', hall, hagrees, -⟩ | ⟨f, -, -, hrun', -⟩⟩ :=
    run_processAll_cases m namer notifier settings before 1
      (p := ⟨settings.sources.length, 0⟩) (agrees_begun settings store)
      (by dsimp only; omega)
  · rw [hrun] at hrun'
    cases hrun'
    obtain ⟨items, hitems⟩ := (entered_begun m namer settings store).enterAll hall
    exact ⟨g, items, hagrees, hitems⟩
  · rw [hrun] at hrun'
    cases hrun'

/-- A batch of documents with a numbered pattern does not end over a name. -/
theorem run_ne_repeatedName {settings : Settings Pdf.Source} {store : Store} {name : String}
    (hpattern : Numbered settings.pattern) (hclock : SteadyWidth clock)
    (hnotifier : ∀ current total, (notifier current total).2 ≠ .error (.repeatedName name)) :
    ((run Pdf.medium (namerBy clock) notifier settings).run (.start store)).1 ≠
      .error (.repeatedName name) := by
  rcases run_course Pdf.medium (namerBy clock) notifier settings store with
    ⟨f, s, hrun, -, -, hcause⟩ | ⟨output, p, s, g, files, hvalid, hcommit⟩
  · rw [hrun]
    intro heq
    cases heq
    rcases hcause with hinvalid | hall | ⟨current, hfailed⟩
    · unfold Settings.validate at hinvalid
      split at hinvalid
      · cases hinvalid
      · split at hinvalid <;> cases hinvalid
    · obtain ⟨before, source, after, g, -, hbefore, henter⟩ := Ledger.enterAll_eq_error.1 hall
      obtain ⟨items, hitems⟩ : ∃ items, Entered Pdf.medium (namerBy clock) settings store.tree
          before g items := (entered_begun ..).enterAll hbefore
      rw [Int.add_comm] at henter
      exact hitems.notMem_names hpattern hclock source.name (mem_names_of_enter rfl henter)
    · exact hnotifier _ _ hfailed
  · rw [hcommit.outcome hvalid]
    intro heq
    cases houtcome : ((Store.commit output).run s.store).1 with
    | ok u =>
      rw [houtcome] at heq
      cases heq
    | error f =>
      rw [houtcome] at heq
      cases heq
      exact commit_ne_repeatedName _ _ _ houtcome

/-- **Numbers keep names apart.** A pattern with the number of the source and without its base name
gives different names for different numbers, whatever the sources are called; so in a batch every
output can be registered, even if all sources have the same name. -/
theorem batch_of_numbered {pattern : String} (h : Numbered pattern) :
    (∀ (time : Instant) (source source' : String) (number number' : Int), number ≠ number' →
      outputName pattern ⟨source, number, time⟩ ≠ outputName pattern ⟨source', number', time⟩) ∧
    ∀ clock, SteadyWidth clock → NeverTaken pattern clock := by
  refine ⟨fun time source source' number number' hne heq => ?_, fun clock hclock => ⟨?_, ?_⟩⟩
  · exact hne (number_eq_of_outputName_eq h (Eq.refl time.timestampChars.length) heq)
  · intro ρ σ κ δ m notifier settings store before after source p s hpattern hsources hrun buffer st
      hregistry
    subst hpattern
    obtain ⟨g, items, hagrees, hitems⟩ := exists_entered_of_processAll hsources hrun
    refine run_add_of_notMem buffer ?_
    rw [hregistry, hagrees.registry]
    exact hitems.notMem_names h hclock (m.name source)
  · intro notifier settings store name hpattern hnotifier
    subst hpattern
    exact run_ne_repeatedName h hclock hnotifier

/-- Two documents of one name. -/
def namesakes : FileTree :=
  let book : Content := .document ⟨"%PDF-1.6", [], ⟨[], none, none⟩, none, false⟩
  ⟨["w"], [(["w"], .directory), (["w", "tmp"], .directory), (["w", "x"], .directory),
    (["w", "x", "a.pdf"], .file book), (["w", "y"], .directory), (["w", "y", "a.pdf"], .file book)]⟩

/-- They are split into outputs `111` and `121`; the one with number `11` would be `1111`. -/
theorem batch_of_numbered_namesakes :
    let pattern := "1[FILENUMBER]1"
    let time : Instant := ⟨2024, 3, 9, 14, 5, 7, 0⟩
    let settings : Settings Pdf.Source :=
      { sources := [.of (.ofText "x/a.pdf") none none, .of (.ofText "y/a.pdf") none none]
        output := some (.ofText "out"), pattern, overwrite := false, version := none
        repagination := .none }
    let store : Store := ⟨namesakes, 0, .empty false, []⟩
    let ending := (run Pdf.medium (namerBy fun _ => time) .silent settings).run (.start store)
    outputName pattern ⟨"x/a.pdf", 1, time⟩ ≠ outputName pattern ⟨"y/a.pdf", 11, time⟩ ∧
      ending.1 ≠ .error (.repeatedName "111.pdf") ∧ ending.1.isOk = true := by
  intro pattern time settings store ending
  have hpattern : Numbered pattern := ⟨by decide, by decide⟩
  obtain ⟨hnames, hclock⟩ := batch_of_numbered hpattern
  refine ⟨hnames time _ _ 1 11 (by decide), ?_, by decide +kernel⟩
  exact (hclock _ (steadyWidth_const time)).ending .silent settings _ _ rfl (fun _ _ => nofun)

end Folio.Batch
