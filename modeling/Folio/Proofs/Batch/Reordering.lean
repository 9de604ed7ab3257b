import Folio.Proofs.Batch.Feasibility

/-!
# The order of the sources

What a batch needs and what it leaves does not depend on the order of its sources, if the names of
the outputs do not number them (`Feasible.perm`, `Leaves.agree`). So a batch whose outputs replace
nothing succeeds in one order just if it does in another, and then the trees that are left are the
same (`run_of_perm`). That no source is a buffer of the batch has to be known: such a source can be
opened only behind the others (`not_run_of_perm`).
-/

namespace Folio.Batch

open FileTree

variable {ρ σ κ δ : Type} {m : Medium ρ σ κ δ} {notifier : Notifier} {settings : Settings ρ}
  {sources' : List ρ} {output : Path} {store : Store} {time : Instant} {t τ : FileTree}

/-! ## What the order shows in -/

/-- Without numbers each source gives its name. -/
theorem outputNames_eq_map (m : Medium ρ σ κ δ) (time : Instant) (settings : Settings ρ)
    (hnumber : ¬ Naming.Field.fileNumber.placeholder <:+: settings.pattern.toList) :
    outputNames m time settings = settings.sources.map fun source =>
      Naming.outputName settings.pattern ⟨m.name source, 0, time⟩ := by
  refine List.ext_getElem (by simp [outputNames]) fun i h₁ h₂ => ?_
  rw [List.getElem_map, ← Naming.outputName_of_unnumbered hnumber _ time (i + 1)]
  simp [outputNames]

theorem outputNames_perm (m : Medium ρ σ κ δ) (time : Instant)
    (hnumber : ¬ Naming.Field.fileNumber.placeholder <:+: settings.pattern.toList)
    (hperm : sources'.Perm settings.sources) :
    (outputNames m time { settings with sources := sources' }).Perm
      (outputNames m time settings) := by
  rw [outputNames_eq_map m time settings hnumber,
    outputNames_eq_map m time { settings with sources := sources' } hnumber]
  exact hperm.map _

theorem validate_of_perm (hperm : sources'.Perm settings.sources) :
    { settings with sources := sources' }.validate = settings.validate := by
  unfold Settings.validate
  rw [hperm.isEmpty_eq]

theorem Apart.perm (h : Apart m settings store) (hperm : sources'.Perm settings.sources) :
    Apart m { settings with sources := sources' } store := by
  intro τ hreserved source hsource
  rw [hperm.length_eq] at hreserved
  exact h hreserved source (hperm.mem_iff.1 hsource)

namespace SplitsInto

variable {source source' : ρ} {made made' : Nat} {handle handle' : σ} {c c' : Content}

/-- What else there is to be split does not matter. -/
theorem with_sources (h : SplitsInto m settings t source made handle c) (sources' : List ρ) :
    SplitsInto m { settings with sources := sources' } t source made handle c :=
  ⟨h.opened, h.granted, h.form⟩

/-- A source can be split into any draft that some source can be split into. -/
theorem exchange (h : SplitsInto m settings t source made handle c) (hm : m.Impartial)
    (h' : SplitsInto m settings t source' made' handle' c') :
    SplitsInto m settings t source made' handle c :=
  ⟨h.opened, h.granted, hm h.form h'.form⟩

/-- What a source is split into does not depend on the draft. -/
theorem unique (h : SplitsInto m settings t source made handle c) (hm : m.Impartial)
    (h' : SplitsInto m settings t source made' handle' c') : c' = c := by
  cases h.opened.symm.trans h'.opened
  exact Except.ok.inj (h'.form.symm.trans (h.exchange hm h').form)

end SplitsInto

/-! ## Reordered batches -/

/-- What a batch needs it needs in every order. -/
theorem Feasible.perm (h : Feasible m time notifier settings output store τ) (hm : m.Impartial)
    (hnumber : ¬ Naming.Field.fileNumber.placeholder <:+: settings.pattern.toList)
    (hperm : sources'.Perm settings.sources) :
    Feasible m time notifier { settings with sources := sources' } output store τ := by
  have hnames := outputNames_perm m time hnumber hperm
  refine ⟨hperm.length_eq ▸ h.reserved, fun i source hi => ?_, hnames.nodup_iff.2 h.nodup,
    hperm.length_eq ▸ h.notified, h.made, fun name hname => h.free name (hnames.mem_iff.1 hname),
    fun name hname => h.named name (hnames.mem_iff.1 hname)⟩
  -- the source stood elsewhere before, and another one stood here
  obtain ⟨j, hj⟩ := List.mem_iff_getElem?.1 (hperm.mem_iff.1 (List.mem_of_getElem? hi))
  have hlt : i < settings.sources.length := by
    rw [← hperm.length_eq]
    exact (List.getElem?_eq_some_iff.1 hi).1
  obtain ⟨handle, c, hsplits⟩ := h.splits j source hj
  obtain ⟨_, _, hthere⟩ := h.splits i _ (List.getElem?_eq_getElem hlt)
  exact ⟨handle, c, (hsplits.exchange hm hthere).with_sources sources'⟩

/-- What a batch leaves it leaves in every order. -/
theorem Leaves.agree {t' t'' : FileTree} (h : Leaves m time settings output store τ t')
    (h' : Leaves m time { settings with sources := sources' } output store τ t'')
    (hm : m.Impartial)
    (hnumber : ¬ Naming.Field.fileNumber.placeholder <:+: settings.pattern.toList)
    (hperm : sources'.Perm settings.sources) :
    t''.cwd = t'.cwd ∧ ∀ l, t''.get? l = t'.get? l := by
  refine ⟨h'.cwd.trans h.cwd.symm, fun l => ?_⟩
  by_cases hl : ∃ name ∈ outputNames m time settings,
    (τ.makeDirectories output).2.Names (Registry.target output name) l
  · obtain ⟨name, hname, hnamed⟩ := hl
    obtain ⟨i, hi, rfl⟩ := List.mem_mapIdx.1 hname
    obtain ⟨j, hj⟩ := List.mem_iff_getElem?.1 (hperm.mem_iff.2 (List.getElem_mem hi))
    obtain ⟨handle, c, hsplits, hlanded⟩ := h.landed i _ (List.getElem?_eq_getElem hi)
    obtain ⟨handle', c', hsplits', hlanded'⟩ := h'.landed j _ hj
    rw [hlanded l hnamed, hlanded' l, (hsplits.with_sources sources').unique hm hsplits']
    rwa [Naming.outputName_of_unnumbered hnumber _ time (j + 1) (i + 1)]
  · have hnames := outputNames_perm m time hnumber hperm
    rw [h.elsewhere l fun name hname hnamed => hl ⟨name, hname, hnamed⟩,
      h'.elsewhere l fun name hname hnamed => hl ⟨name, hnames.mem_iff.1 hname, hnamed⟩]

/-- **The order of the sources does not matter** to a batch whose outputs replace nothing and have
names without slashes and without numbers: if it succeeds in one order it does in every other, and
the same is left then. No source may be a temporary buffer of the batch, and apart from those that
nothing can be saved from all drafts have to be alike. -/
theorem run_of_perm (time : Instant) (notifier : Notifier) (hguarded : m.Guarded)
    (himpartial : m.Impartial) (ht : store.tree.WellFormed)
    (hoverwrite : settings.overwrite = false) (hslash : '/' ∉ settings.pattern.toList)
    (hnumber : ¬ Naming.Field.fileNumber.placeholder <:+: settings.pattern.toList)
    (hapart : Apart m settings store) (hperm : sources'.Perm settings.sources) :
    (((run m (namerAt time) notifier { settings with sources := sources' }).run
          (.start store)).1.isOk = true ↔
        ((run m (namerAt time) notifier settings).run (.start store)).1.isOk = true) ∧
      ∀ p p' s s',
        (run m (namerAt time) notifier settings).run (.start store) = (.ok p, s) →
        (run m (namerAt time) notifier { settings with sources := sources' }).run (.start store) =
          (.ok p', s') →
        s'.store.tree.cwd = s.store.tree.cwd ∧
          ∀ l, s'.store.tree.get? l = s.store.tree.get? l := by
  have hoverwrite' : { settings with sources := sources' }.overwrite = false := hoverwrite
  have hslash' : '/' ∉ { settings with sources := sources' }.pattern.toList := hslash
  have hapart' := hapart.perm hperm
  have hback : settings.sources.Perm { settings with sources := sources' }.sources := hperm.symm
  constructor
  · rw [isOk_run_iff hguarded ht hoverwrite hapart, isOk_run_iff hguarded ht hoverwrite' hapart',
      validate_of_perm hperm]
    constructor
    · rintro ⟨output, τ, hvalid, hfeasible⟩
      exact ⟨output, τ, hvalid, hfeasible.perm himpartial hnumber hback⟩
    · rintro ⟨output, τ, hvalid, hfeasible⟩
      exact ⟨output, τ, hvalid, hfeasible.perm himpartial hnumber hperm⟩
  · intro p p' s s' hrun hrun'
    obtain ⟨output, τ, hvalid, hreserved, hleaves⟩ :=
      leaves_of_run ht hslash hoverwrite hapart hrun
    obtain ⟨output', τ', hvalid', hreserved', hleaves'⟩ :=
      leaves_of_run ht hslash' hoverwrite' hapart' hrun'
    rw [validate_of_perm hperm] at hvalid'
    cases hvalid.symm.trans hvalid'
    rw [hperm.length_eq] at hreserved'
    cases hreserved.symm.trans hreserved'
    exact hleaves.agree hleaves' himpartial hnumber hperm

/-- A document of one page. -/
def onePage (label : String) (box : Box Float) : Pdf.File where
  header := "%PDF-1.4"
  pages := [.of label box none none none]
  description := ⟨[], none, none⟩
  encryption := none
  drafted := false

/-- A store with two documents in it. -/
def pairStore : Store where
  tree := { stage with entries := stage.entries ++
    [(["w", "a.pdf"], .file (.document (onePage "i" ⟨0, 0, 800, 600⟩))),
      (["w", "b.pdf"], .file (.document (onePage "ii" ⟨0, 0, 600, 800⟩)))] }
  buffers := 0
  registry := .empty false
  log := []

/-- Settings that put the outputs of two sources into a directory under the names of the sources. -/
def pairSettings (first second : String) : Settings Pdf.Source where
  sources := [.of (.ofText first) none none, .of (.ofText second) none none]
  output := some ⟨.relative, ["out"]⟩
  pattern := "[BASENAME]"
  overwrite := false
  version := none
  repagination := .none

/-- Two documents are split in either order. -/
theorem run_of_perm_two :
    let time : Instant := ⟨2024, 3, 9, 14, 5, 7, 0⟩
    let settings := pairSettings "a.pdf" "b.pdf"
    let sources' := (pairSettings "b.pdf" "a.pdf").sources
    pairStore.tree.WellFormed ∧ settings.overwrite = false ∧ '/' ∉ settings.pattern.toList ∧
      ¬ Naming.Field.fileNumber.placeholder <:+: settings.pattern.toList ∧
      Apart Pdf.medium settings pairStore ∧ sources'.Perm settings.sources ∧
      ∃ p p' s s',
        (run Pdf.medium (namerAt time) .logging settings).run (.start pairStore) = (.ok p, s) ∧
        (run Pdf.medium (namerAt time) .logging { settings with sources := sources' }).run
          (.start pairStore) = (.ok p', s') ∧
        s'.store.tree.cwd = s.store.tree.cwd ∧
          ∀ l, s'.store.tree.get? l = s.store.tree.get? l := by
  intro time settings sources'
  have ht : pairStore.tree.WellFormed := .of_entries rfl (by decide)
  have hslash : '/' ∉ settings.pattern.toList := by decide
  have hnumber : ¬ Naming.Field.fileNumber.placeholder <:+: settings.pattern.toList := by
    decide +kernel
  have hapart : Apart Pdf.medium settings pairStore :=
    apart_of_read (List.forall_mem_cons.2 ⟨⟨_, rfl⟩, List.forall_mem_cons.2 ⟨⟨_, rfl⟩, nofun⟩⟩)
  have hperm : sources'.Perm settings.sources := .swap ..
  obtain ⟨hiff, hagree⟩ := run_of_perm time .logging Pdf.guarded_medium
    Pdf.impartial_medium ht rfl hslash hnumber hapart hperm
  obtain ⟨p, hrun⟩ := Step.run_eq_ok (x := run Pdf.medium (namerAt time) .logging settings)
    (s := .start pairStore) (by decide +kernel)
  obtain ⟨p', hrun'⟩ := Step.run_eq_ok (hiff.2 (by rw [hrun]; rfl))
  exact ⟨ht, rfl, hslash, hnumber, hapart, hperm, p, p', _, _, hrun, hrun',
    hagree _ _ _ _ hrun hrun'⟩

/-- The order does matter if a source may be a buffer of the batch: the buffer of the first source
can be opened as the second one. -/
theorem not_run_of_perm :
    ¬ ∀ (settings : Settings Pdf.Source) (sources' : List Pdf.Source) (store : Store)
        (time : Instant) (notifier : Notifier), store.tree.WellFormed →
        settings.overwrite = false → '/' ∉ settings.pattern.toList →
        ¬ Naming.Field.fileNumber.placeholder <:+: settings.pattern.toList →
        sources'.Perm settings.sources →
        (((run Pdf.medium (namerAt time) notifier { settings with sources := sources' }).run
              (.start store)).1.isOk = true ↔
          ((run Pdf.medium (namerAt time) notifier settings).run
              (.start store)).1.isOk = true) := by
  intro h
  have hiff := h (pairSettings "a.pdf" "tmp/spreadsplit_b1.pdf")
    (pairSettings "tmp/spreadsplit_b1.pdf" "a.pdf").sources pairStore ⟨2024, 3, 9, 14, 5, 7, 0⟩
    .logging (.of_entries rfl (by decide)) rfl (by decide) (by decide +kernel) (.swap ..)
  have hreturns : ((run Pdf.medium (namerAt ⟨2024, 3, 9, 14, 5, 7, 0⟩) .logging
      (pairSettings "a.pdf" "tmp/spreadsplit_b1.pdf")).run (.start pairStore)).1.isOk = true := by
    decide +kernel
  have hfails : ((run Pdf.medium (namerAt ⟨2024, 3, 9, 14, 5, 7, 0⟩) .logging
      (pairSettings "tmp/spreadsplit_b1.pdf" "a.pdf")).run (.start pairStore)).1.isOk = false := by
    decide +kernel
  exact Bool.false_ne_true (hfails.symm.trans (hiff.2 hreturns))

end Folio.Batch
