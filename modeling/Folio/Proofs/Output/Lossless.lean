import Folio.Proofs.Output.Landing

/-!
# What a commit loses

Names are compared as texts when outputs are registered, and targets are looked for once, before the
first move. Two names that are different texts may still name one location, as `a` and `./a` do, and
then the later output replaces the earlier one. `Store.commit_lossless_iff` says when a commit that
succeeds has kept every output: if no two outputs with different contents have targets that name one
location, and, where files may be overwritten, no target leads to a directory or to a buffer.
-/

namespace Folio

open FileTree

variable {directory : Path} {items : List Pending}

namespace FileTree

variable {t t' : FileTree}

/-- Any two outputs whose targets name one location hold the same. -/
def Consistent (t : FileTree) (directory : Path) (items : List Pending) : Prop :=
  ∀ x ∈ items, ∀ y ∈ items, ∀ l, t.Names (Registry.target directory x.name) l →
    t.Names (Registry.target directory y.name) l → x.content = y.content

/-- The output is found where it was to go, and no longer where it waited. -/
structure Arrived (t : FileTree) (directory : Path) (x : Pending) : Prop where
  read : t.read (Registry.target directory x.name) = .ok x.content
  get?_location : t.get? x.location = none

namespace Arrived

variable {as : List Location} {bs : List (Location × Content)} {x : Pending}

/-- An output that has arrived is a file at the location that its target named before the moves. -/
theorem exists_file (h : t'.Arrived directory x) (ht : t.WellFormed)
    (hcarried : Carried t as bs t') :
    ∃ l, t.Names (Registry.target directory x.name) l ∧ t'.get? l = some (.file x.content) := by
  obtain ⟨l, hnames, hfile⟩ := Names.of_read (hcarried.wellFormed ht) h.read
  exact ⟨l, hnames.mono hcarried.directoriesKept_back, hfile⟩

/-- If every output has arrived, nothing was in the way. -/
theorem unobstructed (h : ∀ x ∈ items, t'.Arrived directory x) (ht : t.WellFormed)
    (hcarried : Carried t as bs t') : t.Unobstructed directory items := by
  intro x hx _ l hl
  obtain ⟨k, hnames, hfile⟩ := (h x hx).exists_file ht hcarried
  rw [hnames.eq_of_locate hl]
  refine ⟨?_, fun y hy heq => ?_⟩
  · rw [← hcarried.isDirectory_eq]
    exact not_isDirectory_of_file hfile
  · rw [heq, (h y hy).get?_location] at hfile
    cases hfile

/-- If every output has arrived, those that share a location hold the same. -/
theorem consistent (h : ∀ x ∈ items, t'.Arrived directory x) (ht : t.WellFormed)
    (hcarried : Carried t as bs t') : t.Consistent directory items := by
  intro x hx y hy l hxl hyl
  obtain ⟨k, hxk, hxfile⟩ := (h x hx).exists_file ht hcarried
  obtain ⟨k', hyk, hyfile⟩ := (h y hy).exists_file ht hcarried
  rw [hxl.unique hxk] at hxfile
  rw [hyl.unique hyk, hxfile] at hyfile
  exact Entry.file.inj (Option.some.inj hyfile)

end Arrived

/-- Outputs that are moved to their locations have arrived, if none is in the way of another one. -/
theorem arrived_of_carried (hwait : ∀ x ∈ items, x.WaitsIn t)
    (hclear : t.Unobstructed directory items) (hconsistent : t.Consistent directory items)
    (htargets : ∀ x ∈ items, t.Names (Registry.target directory x.name)
      (t.named (Registry.target directory x.name)))
    (hcarried : Carried t (items.map Pending.location) (items.map (Pending.landing t directory))
      t') :
    ∀ x ∈ items, t'.Arrived directory x := by
  intro x hx
  have hne : ∀ y ∈ items, ∀ z ∈ items,
      t.named (Registry.target directory y.name) ≠ z.location := fun y hy z hz =>
    hclear.ne_location hy hz (hwait z hz) (htargets y hy)
  have hbuffer : t.named (Registry.target directory x.name) ∉ items.map Pending.location := by
    intro hmem
    obtain ⟨y, hy, heq⟩ := List.mem_map.1 hmem
    exact hne x hx y hy heq.symm
  have hfile : t'.get? (t.named (Registry.target directory x.name)) = some (.file x.content) := by
    rw [hcarried.get?_of_notMem hbuffer]
    cases hlookup : (items.map (Pending.landing t directory)).reverse.lookup
        (t.named (Registry.target directory x.name)) with
    | none =>
      rw [List.lookup_eq_none_iff] at hlookup
      have := hlookup _ (List.mem_reverse.2 (List.mem_map_of_mem hx))
      simp [Pending.landing] at this
    | some c =>
      obtain ⟨l₁, l₂, heq, -⟩ := List.lookup_eq_some_iff.1 hlookup
      have hmem : (t.named (Registry.target directory x.name), c) ∈
          items.map (Pending.landing t directory) := by
        rw [← List.mem_reverse, heq]
        simp
      obtain ⟨y, hy, hlanding⟩ := List.mem_map.1 hmem
      rw [Pending.landing, Prod.mk.injEq] at hlanding
      obtain ⟨hplace, rfl⟩ := hlanding
      have hsame := hconsistent x hx y hy _ (htargets x hx) (hplace ▸ htargets y hy)
      rw [hsame]
      rfl
  refine ⟨((htargets x hx).mono hcarried.directoriesKept).read hfile,
    hcarried.get?_of_mem (List.mem_map_of_mem hx) fun hmem => ?_⟩
  rw [List.map_map] at hmem
  obtain ⟨y, hy, heq⟩ := List.mem_map.1 hmem
  exact hne y hy x hx heq

end FileTree

namespace Store

variable {s s' : Store}

/-- **When a commit that succeeds has lost nothing.** Nothing is registered any more. Every output
is in the directory under its name, and no buffer is left, just if outputs whose targets name one
location hold the same and, where files may be overwritten, no target leads to a directory or to a
buffer. -/
theorem commit_lossless_iff (ht : s.tree.WellFormed)
    (houtputs : s.registry.outputs = items.map Pending.output)
    (hwait : ∀ x ∈ items, x.WaitsIn s.tree) (hnodup : (items.map Pending.location).Nodup)
    (hrun : (commit directory).run s = (.ok (), s')) :
    s'.registry.outputs = [] ∧
      ((∀ x ∈ items, s'.tree.Arrived directory x) ↔
        (s.registry.overwrite = true →
          (s.tree.makeDirectories directory).2.Unobstructed directory items) ∧
        (s.tree.makeDirectories directory).2.Consistent directory items) := by
  obtain ⟨hregistry, hcleared, hlength, hcarried⟩ := carried_of_run ht houtputs hwait hnodup hrun
  have hmade := (makes_makeDirectories ht directory).wellFormed
  refine ⟨hregistry, fun h => ⟨fun _ => Arrived.unobstructed h hmade hcarried,
    Arrived.consistent h hmade hcarried⟩, fun ⟨hclear, hconsistent⟩ => ?_⟩
  have hclear' : (s.tree.makeDirectories directory).2.Unobstructed directory items := by
    cases hoverwrite : s.registry.overwrite with
    | true => exact hclear hoverwrite
    | false => exact hcleared.unobstructed ht houtputs hoverwrite
  have hwait' := fun x hx => waitsIn_makeDirectories ht directory (hwait x hx)
  obtain ⟨hlandings, htargets⟩ := landings_named hmade hwait' hnodup hclear' hlength
  rw [hlandings] at hcarried
  exact arrived_of_carried hwait' hclear' hconsistent htargets hcarried

/-- Two outputs with different texts under two spellings of one name. -/
def respelled : List Pending :=
  [⟨"a", ⟨.relative, ["b1"]⟩, ["w", "b1"], .text "one"⟩,
    ⟨"./a", ⟨.relative, ["b2"]⟩, ["w", "b2"], .text "two"⟩]

/-- The store in which they wait. -/
def respelledStore : Store where
  tree := ⟨["w"], [(["w"], .directory), (["w", "b1"], .file (.text "one")),
    (["w", "b2"], .file (.text "two"))]⟩
  buffers := 2
  registry := ⟨false, respelled.map Pending.output⟩
  log := []

/-- The commit of an output and of another one whose name leads to the same place succeeds, and they
have not both arrived. -/
theorem commit_lossless_iff_respelled :
    ∃ s', (commit ⟨.relative, ["out"]⟩).run respelledStore = (.ok (), s') ∧
      s'.registry.outputs = [] ∧
      ¬ ∀ x ∈ respelled, s'.tree.Arrived ⟨.relative, ["out"]⟩ x := by
  have hwait : ∀ x ∈ respelled, x.WaitsIn respelledStore.tree := by
    intro x hx
    rcases List.mem_cons.1 hx with rfl | hx
    · exact ⟨⟨by decide, ["w"], "b1", by decide +kernel, rfl⟩, rfl⟩
    · rw [List.mem_singleton.1 hx]
      exact ⟨⟨by decide, ["w"], "b2", by decide +kernel, rfl⟩, rfl⟩
  obtain ⟨⟨⟩, hrun⟩ := Step.run_eq_ok (x := commit ⟨.relative, ["out"]⟩) (s := respelledStore)
    (by decide +kernel)
  obtain ⟨hregistry, hiff⟩ := commit_lossless_iff (.of_entries (by decide) (by decide)) rfl hwait
    (by decide) hrun
  refine ⟨_, hrun, hregistry, fun h => ?_⟩
  have hsame := (hiff.1 h).2 _ List.mem_cons_self _ (List.mem_cons_of_mem _ List.mem_cons_self)
    ["w", "out", "a"] ⟨by decide +kernel, ["w", "out"], "a", by decide +kernel, rfl⟩
    ⟨by decide +kernel, ["w", "out"], "a", by decide +kernel, rfl⟩
  exact absurd (Content.text.inj hsame) (by decide)

end Store

end Folio
