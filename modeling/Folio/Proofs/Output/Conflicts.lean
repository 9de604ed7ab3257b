import Folio.Proofs.Output.Escaping

/-!
# Conflicts with what exists

A commit that may not overwrite looks at every target before it moves the first buffer.
`commit_conflict_iff` says when it refuses, that the refusal names all targets that exist, in the
order of the registry, and that nothing has happened by then but that the directory was made. What a
target is refused for does not depend on the tree as long as its name is not too long
(`Registry.Short`).
-/

namespace Folio

open FileTree

/-! ## Names that are not too long -/

theorem Path.mem_parts_join {p q : Path} {part : String} (h : part ∈ (p.join q).parts) :
    part ∈ p.parts ∨ part ∈ q.parts := by
  unfold join at h
  split at h
  · exact List.mem_append.1 h
  · exact .inr h

/-- A way with short names is never refused for its length. -/
theorem FileTree.walk_ne_nameTooLong {t : FileTree} {parts : List String} {dir : Location}
    (h : ∀ part ∈ parts, part.utf8ByteSize ≤ nameLimit) :
    t.walk dir parts ≠ .error .nameTooLong := by
  induction parts generalizing dir with
  | nil => exact nofun
  | cons part parts ih =>
    rw [List.forall_mem_cons] at h
    intro hwalk
    unfold walk at hwalk
    split at hwalk
    · next f hspot =>
      cases hwalk
      unfold spotIn at hspot
      have hshort := h.1
      grind
    · next spot hspot =>
      split at hwalk
      · next f hsettle =>
        cases hwalk
        unfold settle at hsettle
        grind
      · exact ih h.2 hwalk

/-- A name of an output that the file system takes: neither one of its components nor the target as
a whole is too long. -/
structure Registry.Short (directory : Path) (name : String) : Prop where
  names : ∀ part ∈ (Path.ofText name).parts, part.utf8ByteSize ≤ nameLimit
  target : isOverlong (Registry.target directory name).text = false

/-- In a directory that was made, looking for the target of a short name is not refused. -/
theorem Registry.Short.exists_pathExists {t t' : FileTree} {directory : Path} {name : String}
    (h : Short directory name) (hdirectory : t'.Passable directory) :
    ∃ found, t.pathExists (Registry.target directory name) = .ok found := by
  cases hfound : t.pathExists (Registry.target directory name) with
  | ok found => exact ⟨found, rfl⟩
  | error e =>
    have hlong := (pathExists_eq_error.1 hfound).2.1
    rw [locate_eq, if_neg (by simp [h.target])] at hlong
    refine absurd hlong (walk_ne_nameTooLong fun part hpart => ?_)
    exact (Path.mem_parts_join hpart).elim (hdirectory.names part) (h.names part)

namespace Store

variable {directory : Path} {s : Store} {f : Failure}

/-! ## Looking at the targets -/

/-- The names whose targets exist, in the order in which they are registered. -/
def occupied (t : FileTree) (directory : Path) (names : List String) : List String :=
  names.filter fun name => t.pathExists (Registry.target directory name) = .ok true

theorem occupied_ne_nil_iff {t : FileTree} {names : List String} :
    occupied t directory names ≠ [] ↔
      ∃ name ∈ names, t.pathExists (Registry.target directory name) = .ok true := by
  simp [occupied]

/-- Where looking for targets is never refused, all that exist are found, in order. -/
theorem existingTargets_eq_occupied {t : FileTree} {names : List String}
    (h : ∀ name ∈ names, ∃ found, t.pathExists (Registry.target directory name) = .ok found) :
    existingTargets t directory names =
      .ok ((occupied t directory names).map (Registry.target directory)) := by
  induction names with
  | nil => rfl
  | cons name names ih =>
    rw [List.forall_mem_cons] at h
    obtain ⟨⟨found, hfound⟩, hnames⟩ := h
    rw [existingTargets, hfound, ih hnames]
    cases found <;> simp [occupied, hfound, Except.map]

/-! ## Refusals -/

/-- No move is refused as a conflict. -/
theorem kind_ne_outputConflict_of_cleared (hcleared : Cleared directory s)
    (h : ((commit directory).run s).1 = .error f) : f.kind ≠ .outputConflict := by
  rw [run_commit_of_cleared hcleared] at h
  rcases hmoves : (moveAll directory s.registry.outputs).run
    { s with tree := (s.tree.makeDirectories directory).2 } with ⟨g | ⟨⟨⟩⟩, s'⟩
  · rw [Step.run_bind_error hmoves] at h
    cases h
    obtain ⟨output, -, t, e, -, rfl⟩ := exists_refused_of_run_moveAll hmoves
    cases e <;> exact nofun
  · rw [Step.run_bind_ok hmoves] at h
    cases h

/-- A commit that finds targets is refused for them, before it moves anything. -/
theorem run_commit_of_occupied (hmade : (s.tree.makeDirectories directory).1 = .ok ())
    (hoverwrite : s.registry.overwrite = false)
    (hfound : ∀ name ∈ s.registry.names, ∃ found,
      (s.tree.makeDirectories directory).2.pathExists (Registry.target directory name) = .ok found)
    (hne : occupied (s.tree.makeDirectories directory).2 directory s.registry.names ≠ []) :
    (commit directory).run s =
      (.error (.existingFiles ((occupied (s.tree.makeDirectories directory).2 directory
          s.registry.names).map fun name => (Registry.target directory name).text)),
        { s with tree := (s.tree.makeDirectories directory).2 }) := by
  have hrun := run_commit_of_targets hmade hoverwrite
  obtain ⟨name, names, hlist⟩ := List.exists_cons_of_ne_nil hne
  rw [existingTargets_eq_occupied hfound, hlist] at hrun
  have htexts : (fun name => (Registry.target directory name).text) =
      Path.text ∘ Registry.target directory := rfl
  rw [hlist, htexts, ← List.map_map]
  exact hrun

/-- **When a commit is refused for what exists**: if it may not overwrite and some target exists
once the directory has been made. The refusal then names exactly the targets that exist, in the
order of the registry. Nothing else has happened to the store but that the directory and those above
it that were missing have been made. -/
theorem commit_conflict_iff (ht : s.tree.WellFormed)
    (hmade : (s.tree.makeDirectories directory).1 = .ok ())
    (hshort : ∀ name ∈ s.registry.names, Registry.Short directory name) :
    let made := (s.tree.makeDirectories directory).2
    let run := (commit directory).run s
    ((∃ f, run.1 = .error f ∧ f.kind = .outputConflict) ↔ s.registry.overwrite = false ∧
        ∃ name ∈ s.registry.names, made.pathExists (Registry.target directory name) = .ok true) ∧
      ∀ f, run.1 = .error f → f.kind = .outputConflict →
        f.message = "Refusing to overwrite existing file(s): " ++ ", ".intercalate
          ((occupied made directory s.registry.names).map fun name =>
            (Registry.target directory name).text) ∧
        run.2 = { s with tree := made } ∧ Made s.tree made directory := by
  intro made run
  have hmakes : Makes s.tree directory (.ok (), made) := by
    have h := makes_makeDirectories ht directory
    rwa [show s.tree.makeDirectories directory = (.ok (), made) from Prod.ext hmade rfl] at h
  have hpassable := passable_of_makes hmakes (hasNul_of_makeDirectories hmade)
  have hfound : ∀ name ∈ s.registry.names, ∃ found,
      made.pathExists (Registry.target directory name) = .ok found :=
    fun name hname => (hshort name hname).exists_pathExists hpassable
  rw [← occupied_ne_nil_iff]
  by_cases hoccupied : s.registry.overwrite = false ∧ occupied made directory s.registry.names ≠ []
  · have hrun : run = _ := run_commit_of_occupied hmade hoccupied.1 hfound hoccupied.2
    rw [hrun]
    refine ⟨iff_of_true ⟨_, rfl, rfl⟩ hoccupied, ?_⟩
    rintro f ⟨⟩ -
    exact ⟨rfl, rfl, hmakes.made⟩
  · have hcleared : Cleared directory s := by
      refine ⟨hmade, fun hoverwrite => ?_⟩
      have hnil : occupied made directory s.registry.names = [] := by
        by_contra hne
        exact hoccupied ⟨hoverwrite, hne⟩
      rw [existingTargets_eq_occupied hfound, hnil]
      rfl
    have hkinds : ∀ f, run.1 = .error f → f.kind ≠ .outputConflict :=
      fun f => kind_ne_outputConflict_of_cleared hcleared
    exact ⟨iff_of_false (fun ⟨f, h, hkind⟩ => hkinds f h hkind) hoccupied,
      fun f h hkind => absurd hkind (hkinds f h)⟩

/-- Three buffers. The names of the first and of the last one lead to a directory and to a file. -/
def crowded : Store where
  tree := ⟨["w"], [(["w"], .directory), (["w", "b1"], .file (.text "one")),
    (["w", "b2"], .file (.text "two")), (["w", "b3"], .file (.text "three")),
    (["w", "out"], .directory), (["w", "out", "old"], .directory),
    (["w", "out", "kept"], .file (.text "kept"))]⟩
  buffers := 3
  registry := ⟨false, [("old", ⟨.relative, ["b1"]⟩), ("new", ⟨.relative, ["b2"]⟩),
    ("old/../kept", ⟨.relative, ["b3"]⟩)]⟩
  log := []

/-- The targets lead to something only when the directory has been made: a part of its path is
missing before. -/
theorem commit_conflict_iff_crowded :
    let directory : Path := ⟨.relative, ["out", "x", ".."]⟩
    let run := (commit directory).run crowded
    ∃ f, run.1 = .error f ∧ f.message =
        "Refusing to overwrite existing file(s): out/x/../old, out/x/../old/../kept" ∧
      run.2.registry = crowded.registry ∧ crowded.tree.get? ["w", "out", "x"] = none ∧
      run.2.tree.get? ["w", "out", "x"] = some .directory := by
  intro directory run
  have ht : crowded.tree.WellFormed := .of_entries (by decide) (by decide)
  have hshort : ∀ name ∈ crowded.registry.names, Registry.Short directory name := by
    have hnames : ∀ name ∈ crowded.registry.names,
        (∀ part ∈ (Path.ofText name).parts, part.utf8ByteSize ≤ nameLimit) ∧
          isOverlong (Registry.target directory name).text = false := by decide +kernel
    exact fun name hname => ⟨(hnames name hname).1, (hnames name hname).2⟩
  have hmade : (crowded.tree.makeDirectories directory).1 = .ok () := by decide +kernel
  obtain ⟨hiff, hrefused⟩ := commit_conflict_iff ht hmade hshort
  obtain ⟨f, hrun, hkind⟩ := hiff.2 ⟨rfl, "old", by decide, by decide +kernel⟩
  obtain ⟨hmessage, hstore, -⟩ := hrefused f hrun hkind
  have hregistry : run.2.registry = crowded.registry := by
    rw [show run.2 = _ from hstore]
  have htree : run.2.tree = (crowded.tree.makeDirectories directory).2 := by
    rw [show run.2 = _ from hstore]
  refine ⟨f, hrun, hmessage.trans ?_, hregistry, rfl, ?_⟩
  · decide +kernel
  · rw [htree]
    rfl

end Store

end Folio
