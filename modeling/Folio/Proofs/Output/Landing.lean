import Mathlib.Data.List.Nodup
import Folio.Proofs.Naming.Characters
import Folio.Proofs.Output.Committing

/-!
# Where outputs land

If all outputs are moved and nothing stands in the way, then each lands at the location that its
target names, with what its buffer held before the first move (`landings_named`). If its name holds
no slash, that is an entry of the directory under its own name (`landings_eq`). That no move takes
another buffer away, or puts something in the way of a later move, is the invariant of the induction
(`Ready.moved`).
-/

namespace Folio

open FileTree

/-- An output that waits to be committed, with the location of its buffer and what is in it. -/
structure Pending where
  name : String
  buffer : Path
  location : Location
  content : Content

namespace Pending

/-- The output as a registry lists it. -/
def output (x : Pending) : String × Path := (x.name, x.buffer)

/-- The buffer as a file. -/
def file (x : Pending) : Location × Content := (x.location, x.content)

/-- The file that the output becomes in a directory. -/
def landed (d : Location) (x : Pending) : Location × Content := (d ++ [x.name], x.content)

/-- The file that the output becomes where its target leads. -/
def landing (t : FileTree) (directory : Path) (x : Pending) : Location × Content :=
  (t.named (Registry.target directory x.name), x.content)

/-- The buffer is named by its path and holds what it should. -/
structure WaitsIn (x : Pending) (t : FileTree) : Prop where
  names : t.Names x.buffer x.location
  get?_eq : t.get? x.location = some (.file x.content)

/-- A buffer waits as before when another one is moved elsewhere. -/
theorem WaitsIn.moved {x : Pending} {t t' : FileTree} {a b : Location} {c : Content}
    (h : x.WaitsIn t) (hmoved : Moved t t' a b c) (hkept : DirectoriesKept t t')
    (hb : x.location ≠ b) (ha : x.location ≠ a) : x.WaitsIn t' :=
  ⟨h.names.mono hkept, by rw [hmoved.get?_eq, if_neg hb, if_neg ha, h.get?_eq]⟩

end Pending

/-- Buffers that wait are filled. -/
theorem Store.filledAt_of_waitsIn {t : FileTree} {items : List Pending}
    (h : ∀ x ∈ items, x.WaitsIn t) :
    FilledAt t (items.map Pending.output) (items.map Pending.location) := by
  rw [FilledAt, List.forall₂_map_left_iff, List.forall₂_map_right_iff, List.forall₂_same]
  exact fun x hx => ⟨(h x hx).names, _, (h x hx).get?_eq⟩

namespace FileTree

variable {t t' : FileTree} {directory : Path} {d b : Location} {c : Content}

/-- No target that the file system can be asked about leads to a directory or to a buffer. -/
def Unobstructed (t : FileTree) (directory : Path) (items : List Pending) : Prop :=
  ∀ x ∈ items, (Registry.target directory x.name).hasNul = false →
    ∀ l, t.locate (Registry.target directory x.name) = .ok l →
      t.isDirectory l = false ∧ ∀ y ∈ items, l ≠ y.location

/-- A target that names a location names none of the buffers. -/
theorem Unobstructed.ne_location {items : List Pending} (h : t.Unobstructed directory items)
    {x y : Pending} (hx : x ∈ items) (hy : y ∈ items) (hwaits : y.WaitsIn t)
    (hnames : t.Names (Registry.target directory x.name) b) : b ≠ y.location := by
  rintro rfl
  have hlocate := hnames.locate (has_iff.2 ⟨_, hwaits.get?_eq⟩)
  exact (h x hx hnames.hasNul _ hlocate).2 y hy rfl

/-- A file that is moved to where no directory is lands at the location that its target names. -/
theorem LandsAt.names_target {buffer target : Path} (hnul : target.hasNul = false)
    (hclear : ∀ l, t.locate target = .ok l → t.isDirectory l = false)
    (h : t.LandsAt buffer target b) : t.Names target b := by
  rcases h with ⟨-, d', n, hspot, rfl⟩ | ⟨-, l, hlocate, hl, -⟩
  · exact ⟨hnul, d', n, hspot, rfl⟩
  · have := hclear l hlocate
    rw [hl] at this
    cases this

/-- A file is moved to any place that is named and is no directory. -/
theorem move_of_names {source target : Path} {a : Location} (ht : t.WellFormed)
    (hsource : t.Names source a) (hfile : t.get? a = some (.file c)) (htarget : t.Names target b)
    (hb : t.isDirectory b = false) :
    ∃ t', t.move source target = (.ok (), t') ∧ Moved t t' a b c := by
  have hnot : ∀ l, t.locate target = .ok l → t.isDirectory l = false := fun l hl =>
    htarget.eq_of_locate hl ▸ hb
  obtain ⟨d, n, hspot, rfl⟩ := hsource.spot
  obtain ⟨d', n', hspot', rfl⟩ := htarget.spot
  obtain ⟨t', hrename, hmoved⟩ := rename_file ht hspot hfile hspot' hb
  refine ⟨t', ?_, hmoved⟩
  rw [move_of_not_isDirectory hnot, if_neg (by simp [hsource.hasNul, htarget.hasNul]), transfer,
    hrename]

/-- A target without slashes that leads to no directory names an entry of its own directory. -/
theorem Names.eq_of_slash_notMem {name : String} (h : t.Names (Registry.target directory name) b)
    (hd : t.locate directory = .ok d) (hdir : t.isDirectory d = true) (hname : '/' ∉ name.toList)
    (hclear : ∀ l, t.locate (Registry.target directory name) = .ok l → t.isDirectory l = false) :
    b = d ++ [name] := by
  obtain ⟨d', n, hspot, rfl⟩ := h.spot
  rw [Registry.target_of_slash_notMem directory hname] at hspot hclear
  split at hspot
  · next hnone =>
    rw [if_pos hnone, List.append_nil] at hclear
    have := hclear d hd
    rw [hdir] at this
    cases this
  · obtain ⟨rfl, rfl⟩ := spot_entryPath hd hspot
    rfl

/-- A move puts nothing in the way of the outputs behind it. -/
theorem Unobstructed.moved {x : Pending} {items : List Pending}
    (h : t.Unobstructed directory (x :: items)) (ht : t.WellFormed) (hwaits : x.WaitsIn t)
    (hb : t.isDirectory b = false) (hup : t.isDirectory b.dropLast = true)
    (hne : ∀ y ∈ items, b ≠ y.location) (hmoved : Moved t t' x.location b x.content) :
    t'.Unobstructed directory items := by
  intro y hy hnul l hl
  have hfile := not_isDirectory_of_file hwaits.get?_eq
  rw [hmoved.isDirectory_eq hfile hb]
  by_cases hlb : l = b
  · exact hlb ▸ ⟨hb, hne⟩
  · have hhas : t.has l = true := by
      obtain ⟨e, he⟩ := has_iff.1 ((hmoved.wellFormed ht hfile hb hup).has_of_locate hl)
      rw [hmoved.get?_eq, if_neg hlb] at he
      split at he
      · cases he
      · exact has_iff.2 ⟨e, he⟩
    have hlocate := (hmoved.directoriesKept_back hfile hb).locate_mono hl hhas
    obtain ⟨hdir, hbuffers⟩ := h y (List.mem_cons_of_mem _ hy) hnul l hlocate
    exact ⟨hdir, fun z hz => hbuffers z (List.mem_cons_of_mem _ hz)⟩

/-- Outputs that can be moved one after the other: their buffers wait at places of their own, and
nothing is in the way of them. -/
structure Ready (t : FileTree) (directory : Path) (items : List Pending) : Prop where
  wellFormed : t.WellFormed
  waits : ∀ x ∈ items, x.WaitsIn t
  nodup : (items.map Pending.location).Nodup
  unobstructed : t.Unobstructed directory items

/-- When the first of the outputs has been moved the others are as ready as before. -/
theorem Ready.moved {x : Pending} {items : List Pending} (h : t.Ready directory (x :: items))
    (htarget : t.Names (Registry.target directory x.name) b) (hb : t.isDirectory b = false)
    (hmoved : Moved t t' x.location b x.content) : t'.Ready directory items := by
  obtain ⟨ht, hwait, hnodup, hclear⟩ := h
  rw [List.map_cons, List.nodup_cons] at hnodup
  have hx := hwait x List.mem_cons_self
  have hfile := not_isDirectory_of_file hx.get?_eq
  have hup := htarget.isDirectory_dropLast
  have hne : ∀ y ∈ items, b ≠ y.location := fun y hy =>
    hclear.ne_location List.mem_cons_self (List.mem_cons_of_mem _ hy)
      (hwait y (List.mem_cons_of_mem _ hy)) htarget
  refine ⟨hmoved.wellFormed ht hfile hb hup, fun y hy => ?_, hnodup.2,
    hclear.moved ht hx hb hup hne hmoved⟩
  exact (hwait y (List.mem_cons_of_mem _ hy)).moved hmoved (hmoved.directoriesKept hfile hb)
    (hne y hy).symm fun heq => hnodup.1 (heq ▸ List.mem_map_of_mem hy)

/-- **Every output lands where its target says**, if all of them are moved. The induction is on the
outputs; the next one is moved in a tree in which the others wait as before. -/
theorem landings_named {items : List Pending} (ht : t.WellFormed)
    (hwait : ∀ x ∈ items, x.WaitsIn t) (hnodup : (items.map Pending.location).Nodup)
    (hclear : t.Unobstructed directory items)
    (hall : (t.landings directory (items.map Pending.output)).length = items.length) :
    t.landings directory (items.map Pending.output) = items.map (Pending.landing t directory) ∧
      ∀ x ∈ items, t.Names (Registry.target directory x.name)
        (t.named (Registry.target directory x.name)) := by
  induction items generalizing t with
  | nil => exact ⟨rfl, fun _ hx => nomatch hx⟩
  | cons x items ih =>
    have hready : t.Ready directory (x :: items) := ⟨ht, hwait, hnodup, hclear⟩
    have hx := hwait x List.mem_cons_self
    obtain ⟨d₀, n₀, hspot, hlocation⟩ := hx.names.spot
    have hread := hx.names.read hx.get?_eq
    rcases move_file_cases ht hspot (hlocation ▸ hx.get?_eq)
      (Registry.target directory x.name) with ⟨b, t₁, hmove, hlands, hmoved⟩ | ⟨e, hmove⟩
    · have hnul := hasNul_of_move (by rw [hmove])
      have htarget := hlands.names_target hnul fun l hl =>
        (hclear x List.mem_cons_self hnul l hl).1
      rw [← hlocation] at hmoved
      have hb := hlands.isDirectory.1
      have hstep : t.landings directory ((x :: items).map Pending.output) =
          (b, x.content) :: t₁.landings directory (items.map Pending.output) :=
        landings_cons hread hmove hlands _
      rw [hstep, List.length_cons, List.length_cons] at hall
      have hrest := hready.moved htarget hb hmoved
      obtain ⟨hlandings, htargets⟩ := ih hrest.wellFormed hrest.waits hrest.nodup
        hrest.unobstructed (by omega)
      have hback : ∀ y ∈ items, t.Names (Registry.target directory y.name)
          (t₁.named (Registry.target directory y.name)) := fun y hy =>
        (htargets y hy).mono
          (hmoved.directoriesKept_back (not_isDirectory_of_file hx.get?_eq) hb)
      have hsame : items.map (Pending.landing t₁ directory) =
          items.map (Pending.landing t directory) :=
        List.map_congr_left fun y hy => by
          rw [Pending.landing, Pending.landing, (hback y hy).eq_named]
      rw [hstep, hlandings, hsame, List.map_cons, Pending.landing, htarget.eq_named]
      refine ⟨rfl, List.forall_mem_cons.2 ⟨by rwa [htarget.eq_named], fun y hy => ?_⟩⟩
      rw [(hback y hy).eq_named]
      exact hback y hy
    · rw [List.map_cons, Pending.output, landings_cons_error hmove] at hall
      cases hall

/-- **Every output lands in the directory under its own name**, if its name holds no slash and all
of them are moved. -/
theorem landings_eq {items : List Pending} (ht : t.WellFormed) (hd : t.locate directory = .ok d)
    (hdir : t.isDirectory d = true) (hnames : ∀ x ∈ items, '/' ∉ x.name.toList)
    (hwait : ∀ x ∈ items, x.WaitsIn t) (hnodup : (items.map Pending.location).Nodup)
    (hclear : t.Unobstructed directory items)
    (hall : (t.landings directory (items.map Pending.output)).length = items.length) :
    t.landings directory (items.map Pending.output) = items.map (Pending.landed d) ∧
      ∀ x ∈ items, t.Names (Registry.target directory x.name) (d ++ [x.name]) := by
  obtain ⟨hlandings, htargets⟩ := landings_named ht hwait hnodup hclear hall
  have hplace : ∀ x ∈ items, t.named (Registry.target directory x.name) = d ++ [x.name] :=
    fun x hx => (htargets x hx).eq_of_slash_notMem hd hdir (hnames x hx) fun l hl =>
      (hclear x hx (htargets x hx).hasNul l hl).1
  refine ⟨hlandings.trans (List.map_congr_left fun x hx => ?_), fun x hx => ?_⟩
  · rw [Pending.landing, Pending.landed, hplace x hx]
  · exact hplace x hx ▸ htargets x hx

/-- Where targets are looked at first and none leads to anything, nothing is in the way. -/
theorem unobstructed_of_existingTargets {items : List Pending} (ht : t.WellFormed)
    (h : Store.existingTargets t directory (items.map Pending.name) = .ok []) :
    t.Unobstructed directory items := by
  intro x hx hnul l hl
  have hnone := (Store.existingTargets_eq_nil _).1 h x.name (List.mem_map_of_mem hx)
  obtain ⟨e, he⟩ := has_iff.1 (ht.has_of_locate hl)
  simp [pathExists, probe, hnul, hl, he, Except.map] at hnone

/-! ## Commits that succeed -/

/-- Outputs that waited in a tree have been moved to the directory at `d`. -/
structure Committed (t t' : FileTree) (directory : Path) (d : Location) (items : List Pending) :
    Prop where
  carried : Carried t (items.map Pending.location) (items.map (Pending.landed d)) t'
  names : ∀ x ∈ items, t.Names (Registry.target directory x.name) (d ++ [x.name])
  ne_location : ∀ x ∈ items, ∀ y ∈ items, d ++ [x.name] ≠ y.location

namespace Committed

variable {items : List Pending} {x : Pending}

/-- Under every name there is the document that waited. -/
theorem get?_landed (h : Committed t t' directory d items) (hnodup : (items.map Pending.name).Nodup)
    (hx : x ∈ items) : t'.get? (d ++ [x.name]) = some (.file x.content) := by
  have hkeys : ((items.map (Pending.landed d)).reverse.map Prod.fst).Nodup := by
    have hkey : Prod.fst ∘ Pending.landed d = (fun name => d ++ [name]) ∘ Pending.name := rfl
    rw [List.map_reverse, List.nodup_reverse, List.map_map, hkey, ← List.map_map]
    exact hnodup.map fun _ _ heq => by simpa using heq
  have hlookup : (items.map (Pending.landed d)).reverse.lookup (d ++ [x.name]) =
      some x.content :=
    lookup_of_mem hkeys (List.mem_reverse.2 (List.mem_map_of_mem hx))
  have hnot : d ++ [x.name] ∉ items.map Pending.location := by
    intro hmem
    obtain ⟨y, hy, heq⟩ := List.mem_map.1 hmem
    exact h.ne_location x hx y hy heq.symm
  rw [h.carried.get?_of_notMem hnot, hlookup]
  rfl

theorem names_after (h : Committed t t' directory d items) (hx : x ∈ items) :
    t'.Names (Registry.target directory x.name) (d ++ [x.name]) :=
  (h.names x hx).mono h.carried.directoriesKept

/-- No buffer is left. -/
theorem get?_location (h : Committed t t' directory d items) (hx : x ∈ items) :
    t'.get? x.location = none := by
  refine h.carried.get?_of_mem (List.mem_map_of_mem hx) fun hmem => ?_
  rw [List.map_map] at hmem
  obtain ⟨y, hy, heq⟩ := List.mem_map.1 hmem
  exact h.ne_location y hy x hx heq

/-- What is neither a buffer nor a target stays as it is. -/
theorem get?_of_ne (h : Committed t t' directory d items) {l : Location}
    (hnodup : (items.map Pending.name).Nodup) (hbuffers : l ∉ items.map Pending.location)
    (htargets : ∀ x ∈ items, t'.locate (Registry.target directory x.name) ≠ .ok l) :
    t'.get? l = t.get? l := by
  have hlookup : (items.map (Pending.landed d)).reverse.lookup l = none := by
    rw [List.lookup_eq_none_iff]
    intro y hy
    obtain ⟨x, hx, rfl⟩ := List.mem_map.1 (List.mem_reverse.1 hy)
    have hlocate := (h.names_after hx).locate (has_iff.2 ⟨_, h.get?_landed hnodup hx⟩)
    have hne : l ≠ d ++ [x.name] := fun heq => htargets x hx (heq ▸ hlocate)
    simpa [Pending.landed] using hne
  rw [h.carried.get?_of_notMem hbuffers, hlookup]
  rfl

end Committed

end FileTree

namespace Store

variable {directory : Path} {s s' : Store} {items : List Pending}

/-- Buffers wait as before when a directory is made. -/
theorem waitsIn_makeDirectories {x : Pending} (ht : s.tree.WellFormed) (directory : Path)
    (h : x.WaitsIn s.tree) : x.WaitsIn (s.tree.makeDirectories directory).2 :=
  have hmade := (makes_makeDirectories ht directory).made
  ⟨h.names.mono hmade.directoriesKept, hmade.get?_of_some h.get?_eq⟩

/-- **Every buffer is moved** if its target names a place and nothing is in the way. The induction
is on the outputs, as in `landings_named`. -/
theorem run_moveAll_of_names (directory : Path) :
    ∀ {items : List Pending} {s : Store}, s.tree.Ready directory items →
      (∀ x ∈ items, ∃ b, s.tree.Names (Registry.target directory x.name) b) →
      ∃ s', (moveAll directory (items.map Pending.output)).run s = (.ok (), s')
  | [], s, _, _ => ⟨s, rfl⟩
  | x :: items, s, hready, hnames => by
    have hx := hready.waits x List.mem_cons_self
    obtain ⟨⟨b, htarget⟩, hnames⟩ := List.forall_mem_cons.1 hnames
    have hb : s.tree.isDirectory b = false := by
      rw [← Bool.not_eq_true]
      intro hdir
      have := (hready.unobstructed x List.mem_cons_self htarget.hasNul b
        (htarget.locate (has_of_isDirectory hdir))).1
      rw [hdir] at this
      cases this
    obtain ⟨t₁, hmove, hmoved⟩ :=
      move_of_names hready.wellFormed hx.names hx.get?_eq htarget hb
    have hkept := hmoved.directoriesKept (not_isDirectory_of_file hx.get?_eq) hb
    obtain ⟨log, hturn⟩ := run_moveAll_cons hmove (items.map Pending.output)
    rw [List.map_cons, Pending.output, hturn]
    refine run_moveAll_of_names directory (s := { s with tree := t₁, log })
      (hready.moved htarget hb hmoved) fun y hy => ?_
    obtain ⟨b', hb'⟩ := hnames y hy
    exact ⟨b', hb'.mono hkept⟩

/-- Where a commit may go on and may not overwrite, nothing is in the way. -/
theorem Cleared.unobstructed (h : Cleared directory s) (ht : s.tree.WellFormed)
    (houtputs : s.registry.outputs = items.map Pending.output)
    (hoverwrite : s.registry.overwrite = false) :
    (s.tree.makeDirectories directory).2.Unobstructed directory items := by
  refine unobstructed_of_existingTargets (makes_makeDirectories ht directory).wellFormed ?_
  have hnames : s.registry.names = items.map Pending.name := by
    rw [Registry.names, houtputs, List.map_map]
    rfl
  exact hnames ▸ h.targets hoverwrite

/-- A commit that succeeds has moved every output, and nothing is registered any more. -/
theorem carried_of_run (ht : s.tree.WellFormed)
    (houtputs : s.registry.outputs = items.map Pending.output)
    (hwait : ∀ x ∈ items, x.WaitsIn s.tree) (hnodup : (items.map Pending.location).Nodup)
    (hrun : (commit directory).run s = (.ok (), s')) :
    s'.registry.outputs = [] ∧ Cleared directory s ∧
      ((s.tree.makeDirectories directory).2.landings directory
        (items.map Pending.output)).length = items.length ∧
      Carried (s.tree.makeDirectories directory).2 (items.map Pending.location)
        ((s.tree.makeDirectories directory).2.landings directory (items.map Pending.output))
        s'.tree := by
  have hfilled : FilledAt s.tree s.registry.outputs (items.map Pending.location) := by
    rw [houtputs]
    exact filledAt_of_waitsIn hwait
  obtain ⟨st, hcarried, ⟨hcommit, hcleared, hlength, hregistry⟩ | ⟨f, hcommit, -⟩⟩ :=
    run_commit directory ht hfilled hnodup
  · cases hrun.symm.trans hcommit
    rw [hcleared.landings_eq, houtputs] at hcarried hlength
    rw [hlength, List.take_length] at hcarried
    rw [List.length_map] at hlength
    exact ⟨by rw [hregistry]; rfl, hcleared, hlength, hcarried⟩
  · rw [hrun] at hcommit
    cases hcommit

/-- **A commit that succeeds** has moved every output to the directory, under its own name. -/
theorem committed_of_run (ht : s.tree.WellFormed)
    (houtputs : s.registry.outputs = items.map Pending.output)
    (hwait : ∀ x ∈ items, x.WaitsIn s.tree) (hnodup : (items.map Pending.location).Nodup)
    (hnames : ∀ x ∈ items, '/' ∉ x.name.toList)
    (hclear : s.registry.overwrite = true →
      (s.tree.makeDirectories directory).2.Unobstructed directory items)
    (hrun : (commit directory).run s = (.ok (), s')) :
    s'.registry.outputs = [] ∧
      ∃ d, Committed (s.tree.makeDirectories directory).2 s'.tree directory d items := by
  obtain ⟨hregistry, hcleared, hlength, hcarried⟩ := carried_of_run ht houtputs hwait hnodup hrun
  have hmakes := makes_makeDirectories ht directory
  obtain ⟨d, hd, hdir⟩ := hmakes.isDirectory hcleared.made
  have hwait' := fun x hx => waitsIn_makeDirectories ht directory (hwait x hx)
  have hclear' : (s.tree.makeDirectories directory).2.Unobstructed directory items := by
    cases hoverwrite : s.registry.overwrite with
    | true => exact hclear hoverwrite
    | false => exact hcleared.unobstructed ht houtputs hoverwrite
  obtain ⟨hlandings, htargets⟩ := landings_eq hmakes.wellFormed hd hdir hnames hwait' hnodup
    hclear' hlength
  rw [hlandings] at hcarried
  exact ⟨hregistry, d, hcarried, htargets, fun x hx y hy =>
    hclear'.ne_location hx hy (hwait' y hy) (htargets x hx)⟩

end Store

end Folio
