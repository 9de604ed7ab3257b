import Folio.Proofs.Output.Committing

/-!
# What a commit spares

A commit that may not overwrite looks at every target once, before its first move. That is enough: a
move changes no directory, so what a target leads to in the end it led to before, and a file that
was seen nowhere is replaced by no move. `Spared` is what every move keeps, whichever buffer it
takes and whether or not it is refused (`Spared.move`), and hence what is left however the commit
ends (`Store.commit_spares`).

Buffers need not be distinct here, and one may be gone before its turn.
-/

namespace Folio

open FileTree

namespace FileTree

variable {t t' : FileTree} {a b : Location} {source target : Path} {places : Location → Prop}

/-- No file lies where one lands that is moved to a path which led to nothing, even if files have
been moved since then. -/
theorem LandsAt.get?_eq_none (h : t'.LandsAt source target b) (hnul : target.hasNul = false)
    (hback : DirectoriesKept t' t) (hfree : t.pathExists target = .ok false) : t.get? b = none := by
  have hnowhere : ∀ l e, t.get? l = some e → t.locate target ≠ .ok l := by
    intro l e he hlocate
    simp [pathExists, probe, hnul, hlocate, he, Except.map] at hfree
  rcases h with ⟨-, d, n, hspot, rfl⟩ | ⟨-, d, hlocate, hdir, -⟩
  · cases hget : t.get? (d ++ [n]) with
    | none => rfl
    | some e =>
      have hlocate := locate_of_spot (hback.spot_mono hspot) (has_iff.2 ⟨e, hget⟩)
      exact absurd hlocate (hnowhere _ e hget)
  · have hdir := hback.isDirectory _ hdir
    exact absurd (hback.locate_mono hlocate (has_of_isDirectory hdir))
      (hnowhere _ _ (isDirectory_iff.1 hdir))

/-- The second tree has the directories of the first, and its files elsewhere than at certain
places. -/
structure Spared (t t' : FileTree) (places : Location → Prop) : Prop where
  wellFormed : t'.WellFormed
  cwd : t'.cwd = t.cwd
  isDirectory_eq : ∀ l, t'.isDirectory l = t.isDirectory l
  get?_file : ∀ l c, t.get? l = some (.file c) → ¬ places l → t'.get? l = some (.file c)

namespace Spared

theorem refl (ht : t.WellFormed) (places : Location → Prop) : Spared t t places :=
  ⟨ht, rfl, fun _ => rfl, fun _ _ hfile _ => hfile⟩

theorem directoriesKept (h : Spared t t' places) : DirectoriesKept t t' :=
  ⟨h.cwd, fun l hl => by rwa [h.isDirectory_eq]⟩

theorem directoriesKept_back (h : Spared t t' places) : DirectoriesKept t' t :=
  ⟨h.cwd.symm, fun l hl => by rwa [← h.isDirectory_eq]⟩

/-- A file that is taken from one of the places and put where nothing was leaves the others. -/
theorem moved {t₁ : FileTree} {c : Content} (h : Spared t t' places) (hmoved : Moved t' t₁ a b c)
    (hfile : t'.get? a = some (.file c)) (ha : places a) (hb : t'.isDirectory b = false)
    (hup : t'.isDirectory b.dropLast = true) (hfree : t.get? b = none) : Spared t t₁ places where
  wellFormed := hmoved.wellFormed h.wellFormed (not_isDirectory_of_file hfile) hb hup
  cwd := hmoved.cwd.trans h.cwd
  isDirectory_eq l := by
    rw [hmoved.isDirectory_eq (not_isDirectory_of_file hfile) hb, h.isDirectory_eq]
  get?_file l c' hc' hl := by
    have hlb : l ≠ b := by
      rintro rfl
      rw [hfree] at hc'
      cases hc'
    have hla : l ≠ a := fun heq => hl (heq ▸ ha)
    rw [hmoved.get?_eq, if_neg hlb, if_neg hla, h.get?_file l c' hc' hl]

/-- **One move.** What is at one of the places, and is no directory, is moved to a path that led to
nothing in the first tree. -/
theorem move (h : Spared t t' places) (hnames : t.Names source a) (ha : places a)
    (hdir : t.isDirectory a = false) (hfree : t.pathExists target = .ok false) :
    Spared t (t'.move source target).2 places := by
  obtain ⟨d, n, hspot, rfl⟩ := (hnames.mono h.directoriesKept).spot
  cases hget : t'.get? (d ++ [n]) with
  | none =>
    obtain ⟨e, hmove⟩ := move_missing hspot hget target
    rwa [hmove]
  | some e =>
    cases e with
    | directory =>
      rw [← h.isDirectory_eq, isDirectory_iff.2 hget] at hdir
      cases hdir
    | file c =>
      rcases move_file_cases h.wellFormed hspot hget target with
        ⟨b, t₁, hmove, hlands, hmoved⟩ | ⟨e, hmove⟩
      · obtain ⟨hb, hup⟩ := hlands.isDirectory
        have hnone := hlands.get?_eq_none (hasNul_of_move (by rw [hmove])) h.directoriesKept_back
          hfree
        rw [hmove]
        exact h.moved hmoved hget ha hb hup hnone
      · rwa [hmove]

end Spared

end FileTree

namespace Store

/-- The moves of a commit, whether or not one is refused. The induction is on the outputs. -/
theorem spared_moveAll {t : FileTree} {directory : Path} {places : Location → Prop}
    {outputs : List (String × Path)}
    (hnames : ∀ output ∈ outputs, ∃ a, places a ∧ t.Names output.2 a ∧ t.isDirectory a = false)
    (hfree : ∀ output ∈ outputs,
      t.pathExists (Registry.target directory output.1) = .ok false) :
    ∀ {s : Store}, Spared t s.tree places →
      Spared t ((moveAll directory outputs).run s).2.tree places := by
  induction outputs with
  | nil => exact fun h => h
  | cons output outputs ih =>
    intro s h
    obtain ⟨name, buffer⟩ := output
    rw [List.forall_mem_cons] at hnames hfree
    obtain ⟨⟨a, ha, hbuffer, hdir⟩, hnames⟩ := hnames
    have hstep := h.move hbuffer ha hdir hfree.1
    rcases hmove : s.tree.move buffer (Registry.target directory name) with ⟨e | ⟨⟨⟩⟩, t₁⟩
    · rw [run_moveAll_cons_error hmove]
      rwa [hmove] at hstep
    · obtain ⟨log, hturn⟩ := run_moveAll_cons hmove outputs
      rw [hmove] at hstep
      rw [hturn]
      exact ih hnames hfree.2 (s := { s with tree := t₁, log }) hstep

/-- **A commit that may not overwrite destroys nothing.** However it ends, every file that is not a
registered buffer is where it was, with what it held, and every directory is there. -/
theorem commit_spares (directory : Path) {s : Store} (ht : s.tree.WellFormed)
    (hoverwrite : s.registry.overwrite = false)
    (hfiles : ∀ output ∈ s.registry.outputs, s.tree.isFileAt output.2 = .ok true) :
    (∀ l c, s.tree.get? l = some (.file c) → ¬ s.IsBuffer l →
        ((commit directory).run s).2.tree.get? l = some (.file c)) ∧
      DirectoriesKept s.tree ((commit directory).run s).2.tree := by
  have hmakes := makes_makeDirectories ht directory
  have hmade := hmakes.made
  by_cases hcleared : Cleared directory s
  · have hbuffers : ∀ output ∈ s.registry.outputs, ∃ a, s.IsBuffer a ∧
        (s.tree.makeDirectories directory).2.Names output.2 a ∧
        (s.tree.makeDirectories directory).2.isDirectory a = false := fun output houtput => by
      obtain ⟨a, c, hnames, hc⟩ := Names.of_isFileAt ht (hfiles output houtput)
      exact ⟨a, ⟨output, houtput, hnames⟩, hnames.mono hmade.directoriesKept,
        not_isDirectory_of_file (hmade.get?_of_some hc)⟩
    have hfree : ∀ output ∈ s.registry.outputs, (s.tree.makeDirectories directory).2.pathExists
        (Registry.target directory output.1) = .ok false := fun output houtput =>
      (existingTargets_eq_nil _).1 (hcleared.targets hoverwrite) output.1
        (List.mem_map_of_mem houtput)
    have hspared := spared_moveAll hbuffers hfree
      (s := { s with tree := (s.tree.makeDirectories directory).2 }) (.refl hmakes.wellFormed _)
    rw [run_commit_of_cleared hcleared, Step.run_bind]
    rcases hrun : (moveAll directory s.registry.outputs).run
      { s with tree := (s.tree.makeDirectories directory).2 } with ⟨f | ⟨⟨⟩⟩, s'⟩
    all_goals
      rw [hrun] at hspared
      exact ⟨fun l c hc hl => hspared.get?_file l c (hmade.get?_of_some hc) hl,
        hmade.directoriesKept.trans hspared.directoriesKept⟩
  · obtain ⟨-, f, hrun⟩ := run_commit_of_not_cleared hcleared
    rw [hrun]
    exact ⟨fun l c hc _ => hmade.get?_of_some hc, hmade.directoriesKept⟩

/-- Two buffers, and a file in the output directory. The second name leads through a directory that
does not exist. -/
def contested : Store where
  tree := ⟨["w"], [(["w"], .directory), (["w", "b1"], .file (.text "one")),
    (["w", "b2"], .file (.text "two")), (["w", "out"], .directory),
    (["w", "out", "kept"], .file (.text "old"))]⟩
  buffers := 2
  registry := ⟨false, [("./new", ⟨.relative, ["b1"]⟩), ("missing/../kept", ⟨.relative, ["b2"]⟩)]⟩
  log := []

/-- The second of two moves is refused, and the file in the output directory is still there. -/
theorem commit_spares_contested :
    ((commit ⟨.relative, ["out"]⟩).run contested).1.isOk = false ∧
      ((commit ⟨.relative, ["out"]⟩).run contested).2.tree.get? ["w", "out", "kept"] =
        some (.file (.text "old")) := by
  have ht : contested.tree.WellFormed := .of_entries (by decide) (by decide)
  have hbuffer : ¬ contested.IsBuffer ["w", "out", "kept"] := by
    rintro ⟨output, houtput, hnames⟩
    have hlocate : ∀ output ∈ contested.registry.outputs,
        contested.tree.locate output.2 ≠ .ok ["w", "out", "kept"] := by decide +kernel
    exact hlocate output houtput (hnames.locate rfl)
  obtain ⟨hfiles, -⟩ := commit_spares ⟨.relative, ["out"]⟩ ht rfl (by decide +kernel)
  exact ⟨by decide +kernel, hfiles _ _ rfl hbuffer⟩

end Store

end Folio
