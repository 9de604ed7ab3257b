import Folio.Proofs.FileTree.Following

/-!
# Adding files

`withFiles` is a tree with new files behind its entries. Making and writing a file that was not
there gives such a tree, and removing the file gives the tree back as it was, entry for entry
(`erase_withFiles_cons`). `Names` says that a path names a location, whatever is there; the
operations on single files are given here in terms of it.
-/

namespace Folio.FileTree

variable {t t' : FileTree} {p : Path} {l : Location} {c : Content}

/-! ## Files that can be read -/

theorem contentAt_eq_ok : t.contentAt l = .ok c ↔ t.get? l = some (.file c) := by
  unfold contentAt
  cases t.get? l with
  | none => simp
  | some e => cases e <;> simp

/-- Reading a file is finding it where its path leads. -/
theorem read_eq_ok :
    t.read p = .ok c ↔ p.hasNul = false ∧ ∃ l, t.locate p = .ok l ∧ t.get? l = some (.file c) := by
  unfold FileTree.read ask
  cases p.hasNul with
  | true => simp
  | false =>
    cases t.locate p with
    | error f => simp [bind, Except.bind, Except.mapError]
    | ok l =>
      cases hc : t.contentAt l <;>
        simp [bind, Except.bind, Except.mapError, ← contentAt_eq_ok, hc]

/-! ## Places for files -/

/-- A file can be written in a directory, where no directory is. -/
theorem fileSpot_eq_ok (h : t.fileSpot p = .ok l) :
    ∃ d n, t.spot p = .ok (.named d n) ∧ t.isDirectory (d ++ [n]) = false ∧ l = d ++ [n] := by
  unfold fileSpot at h
  split at h
  · cases h
  · cases h
  · next d n hspot =>
    split at h
    · cases h
    · next hdir =>
      cases h
      exact ⟨d, n, hspot, by simpa using hdir, rfl⟩

/-- A new file can be made in a directory, where nothing is. -/
theorem freshSpot_eq_ok {text : String} (h : t.freshSpot text = .ok l) :
    ∃ d n, t.spot (.ofText text) = .ok (.named d n) ∧ t.has (d ++ [n]) = false ∧ l = d ++ [n] := by
  have hfault : ∀ q f, (t.faultIn q f : Except Fault Location) ≠ .ok l := by
    intro q f
    unfold faultIn
    split <;> nofun
  unfold freshSpot at h
  dsimp only at h
  split at h
  · cases h
  split at h
  · exact absurd h (hfault _ _)
  split at h
  · exact absurd h (hfault _ _)
  split at h
  · cases h
  · cases h
  · next d n hspot =>
    split at h
    · cases h
    · next hfree =>
      cases h
      exact ⟨d, n, hspot, by simpa using hfree, rfl⟩

/-! ## Paths that name a location -/

/-- A path that can be handed to the file system and ends in a name in a directory names the
location with that name. -/
structure Names (t : FileTree) (p : Path) (l : Location) : Prop where
  hasNul : p.hasNul = false
  spot : ∃ d n, t.spot p = .ok (.named d n) ∧ l = d ++ [n]

/-- The location that a path names, if it names one. -/
def named (t : FileTree) (p : Path) : Location :=
  match t.spot p with
  | .ok (.named d n) => d ++ [n]
  | _ => []

namespace Names

theorem ne_nil (h : t.Names p l) : l ≠ [] := by
  obtain ⟨d, n, -, rfl⟩ := h.spot
  simp

/-- A path goes on to name its location as long as directories are kept. -/
theorem mono (h : t.Names p l) (hkept : DirectoriesKept t t') : t'.Names p l := by
  obtain ⟨d, n, hs, rfl⟩ := h.spot
  exact ⟨h.hasNul, d, n, hkept.spot_mono hs, rfl⟩

/-- A path names one location. -/
theorem unique {l' : Location} (h : t.Names p l) (h' : t.Names p l') : l' = l := by
  obtain ⟨d, n, hs, rfl⟩ := h.spot
  obtain ⟨d', n', hs', rfl⟩ := h'.spot
  cases hs.symm.trans hs'
  rfl

theorem eq_named (h : t.Names p l) : t.named p = l := by
  obtain ⟨d, n, hs, rfl⟩ := h.spot
  simp only [named, hs]

/-- A path leads nowhere else than to the location that it names. -/
theorem eq_of_locate {l' : Location} (h : t.Names p l) (hl : t.locate p = .ok l') : l' = l := by
  obtain ⟨d, n, hs, rfl⟩ := h.spot
  rw [FileTree.locate, hs] at hl
  exact (settle_named_eq_ok.1 hl).2

theorem isDirectory_dropLast (h : t.Names p l) : t.isDirectory l.dropLast = true := by
  obtain ⟨d, n, hs, rfl⟩ := h.spot
  simpa using isDirectory_of_spot hs

theorem locate (h : t.Names p l) (hhas : t.has l = true) : t.locate p = .ok l := by
  obtain ⟨d, n, hs, rfl⟩ := h.spot
  simp [FileTree.locate, hs, settle, hhas]

theorem read (h : t.Names p l) (hfile : t.get? l = some (.file c)) : t.read p = .ok c :=
  read_eq_ok.2 ⟨h.hasNul, l, h.locate (has_iff.2 ⟨_, hfile⟩), hfile⟩

theorem write (h : t.Names p l) (hdir : t.isDirectory l = false) :
    t.write p c = .ok (t.put l (.file c)) := by
  obtain ⟨d, n, hs, rfl⟩ := h.spot
  simp [FileTree.write, ask, h.hasNul, fileSpot, hs, hdir, Except.mapError, Except.map]

theorem unlink (h : t.Names p l) (hfile : t.get? l = some (.file c)) :
    t.unlink p = .ok (t.erase l) := by
  obtain ⟨d, n, hs, rfl⟩ := h.spot
  simp [FileTree.unlink, ask, h.hasNul, hs, hfile, Except.mapError]

/-- A path that leads to a file names its location. -/
theorem of_file (ht : t.WellFormed) (hnul : p.hasNul = false) (hl : t.locate p = .ok l)
    (hfile : t.get? l = some (.file c)) : t.Names p l := by
  refine ⟨hnul, ?_⟩
  unfold FileTree.locate at hl
  cases hs : t.spot p with
  | error f =>
    rw [hs] at hl
    cases hl
  | ok s =>
    rw [hs] at hl
    cases s with
    | fixed d =>
      cases hl
      have hdir := ht.isDirectory_of_spot_fixed hs
      rw [not_isDirectory_of_file hfile] at hdir
      cases hdir
    | named d n => exact ⟨d, n, rfl, (settle_named_eq_ok.1 hl).2⟩

/-- A file that can be read is found where its path says. -/
theorem of_read (ht : t.WellFormed) (h : t.read p = .ok c) :
    ∃ l, t.Names p l ∧ t.get? l = some (.file c) := by
  obtain ⟨hnul, l, hl, hfile⟩ := read_eq_ok.1 h
  exact ⟨l, .of_file ht hnul hl hfile, hfile⟩

/-- A path that is known to lead to a file names its location. -/
theorem of_isFileAt (ht : t.WellFormed) (h : t.isFileAt p = .ok true) :
    ∃ l c, t.Names p l ∧ t.get? l = some (.file c) := by
  unfold isFileAt probe at h
  split at h
  · cases h
  next hnul =>
  split at h
  · next l hl =>
    cases hget : t.get? l with
    | none =>
      rw [hget] at h
      cases h
    | some e =>
      rw [hget] at h
      cases e with
      | directory => cases h
      | file c => exact ⟨l, c, .of_file ht (by simpa using hnul) hl hget, hget⟩
  all_goals cases h

end Names

/-! ## Files behind the entries -/

/-- The tree with new files behind its entries. -/
def withFiles (t : FileTree) (files : List (Location × Content)) : FileTree :=
  { t with entries := t.entries ++ files.map fun x => (x.1, .file x.2) }

@[simp] theorem withFiles_nil (t : FileTree) : t.withFiles [] = t := by
  simp [withFiles]

theorem withFiles_append (t : FileTree) (files files' : List (Location × Content)) :
    t.withFiles (files ++ files') = (t.withFiles files).withFiles files' := by
  simp [withFiles]

/-- Nothing is at a location that no entry has. -/
theorem notMem_of_get?_none (hl : l ≠ []) (hnone : t.get? l = none) :
    ∀ e, (l, e) ∉ t.entries := by
  intro e he
  have : t.entries.lookup l = none := by simpa [get?, hl] using hnone
  rw [List.lookup_eq_none_iff] at this
  simpa using this _ he

/-- A file that is put where nothing was comes behind the other entries. -/
theorem put_eq_withFiles (hl : l ≠ []) (hnone : t.get? l = none) :
    t.put l (.file c) = t.withFiles [(l, c)] := by
  have : t.entries.lookup l = none := by simpa [get?, hl] using hnone
  simp [put, withFiles, this]

theorem get?_withFiles_single (hl : l ≠ []) (hnone : t.get? l = none) (k : Location) :
    (t.withFiles [(l, c)]).get? k = if k = l then some (.file c) else t.get? k := by
  rw [← put_eq_withFiles hl hnone, get?_put t hl]

/-- A new file that is written over stays behind the other entries. -/
theorem put_withFiles_single (hl : l ≠ []) (hnone : t.get? l = none) (c' : Content) :
    (t.withFiles [(l, c)]).put l (.file c') = t.withFiles [(l, c')] := by
  have hmem := notMem_of_get?_none hl hnone
  have hs : ((t.withFiles [(l, c)]).entries.lookup l).isSome = true := by
    have := get?_withFiles_single (c := c) hl hnone l
    simp only [get?, hl, if_false, if_true] at this
    simp [this]
  have hmap : t.entries.map (fun x => if x.1 = l then (x.1, Entry.file c') else x) = t.entries := by
    conv => rhs; rw [← List.map_id t.entries]
    refine List.map_congr_left fun x hx => ?_
    have hx : x.1 ≠ l := fun h => hmem x.2 (h ▸ hx)
    rw [if_neg hx]
    rfl
  unfold put
  rw [if_pos hs]
  simp only [withFiles, List.map_append, List.map_cons, List.map_nil, if_true]
  rw [hmap]

/-- The first of the new files is removed without a trace. -/
theorem erase_withFiles_cons {files : List (Location × Content)} (hl : l ≠ [])
    (hnone : t.get? l = none) (hfiles : l ∉ files.map Prod.fst) :
    (t.withFiles ((l, c) :: files)).erase l = t.withFiles files := by
  have hmem := notMem_of_get?_none hl hnone
  have h₁ : t.entries.filter (fun x => decide (x.1 ≠ l)) = t.entries :=
    List.filter_eq_self.2 fun x hx => by
      have hx : x.1 ≠ l := fun h => hmem x.2 (h ▸ hx)
      simpa using hx
  have h₂ : (files.map fun x => (x.1, Entry.file x.2)).filter (fun x => decide (x.1 ≠ l)) =
      files.map fun x => (x.1, Entry.file x.2) :=
    List.filter_eq_self.2 fun x hx => by
      obtain ⟨y, hy, rfl⟩ := List.mem_map.1 hx
      have hy : y.1 ≠ l := fun h => hfiles (h ▸ List.mem_map_of_mem hy)
      simpa using hy
  unfold erase withFiles
  simp only [List.filter_append, List.map_cons]
  rw [List.filter_cons_of_neg (by simp)]
  exact congrArg _ (congrArg₂ _ h₁ h₂)

/-- A new file is removed by its path. -/
theorem Names.unlink_withFiles (h : t.Names p l) (hnone : t.get? l = none) :
    (t.withFiles [(l, c)]).unlink p = .ok t := by
  have hkept : DirectoriesKept t (t.withFiles [(l, c)]) := by
    refine ⟨rfl, fun k hk => isDirectory_iff.2 ?_⟩
    rw [get?_withFiles_single h.ne_nil hnone]
    split
    · next hkl =>
      rw [isDirectory_iff, hkl, hnone] at hk
      cases hk
    · exact isDirectory_iff.1 hk
  rw [(h.mono hkept).unlink (by rw [get?_withFiles_single h.ne_nil hnone, if_pos rfl]),
    erase_withFiles_cons h.ne_nil hnone (by simp), withFiles_nil]

/-- New files are free if nothing was at their locations, which are distinct. -/
structure Free (t : FileTree) (files : List (Location × Content)) : Prop where
  get?_none : ∀ l ∈ files.map Prod.fst, l ≠ [] ∧ t.get? l = none
  nodup : (files.map Prod.fst).Nodup

namespace Free

theorem nil (t : FileTree) : t.Free [] := ⟨by simp, by simp⟩

/-- Some of the new files are free on their own. -/
theorem sublist {files files' : List (Location × Content)} (h : t.Free files)
    (hsub : files'.Sublist files) : t.Free files' :=
  ⟨fun k hk => h.get?_none k ((hsub.map _).subset hk), h.nodup.sublist (hsub.map _)⟩

/-- What is found in a tree with new files. -/
theorem get?_eq {files : List (Location × Content)} (h : t.Free files) (k : Location) :
    (t.withFiles files).get? k = (files.lookup k).elim (t.get? k) (some ∘ .file) := by
  induction files using List.reverseRecOn generalizing k with
  | nil => simp
  | append_singleton files x ih =>
    obtain ⟨l, c⟩ := x
    have hnd := h.nodup
    rw [List.map_append, List.nodup_append] at hnd
    have hl : l ∉ files.map Prod.fst := fun hmem => hnd.2.2 l hmem l (by simp) rfl
    have hfiles : t.Free files :=
      ⟨fun k hk => h.get?_none k (by rw [List.map_append]; exact List.mem_append_left _ hk),
        hnd.1⟩
    have hlookup : files.lookup l = none := by
      rw [List.lookup_eq_none_iff]
      intro y hy
      have hy : l ≠ y.1 := fun heq => hl (heq ▸ List.mem_map_of_mem hy)
      simpa using hy
    obtain ⟨hne, hnone⟩ := h.get?_none l (by simp)
    have hnone' : (t.withFiles files).get? l = none := by
      rw [ih hfiles, hlookup]
      exact hnone
    rw [withFiles_append, get?_withFiles_single hne hnone', ih hfiles, List.lookup_append]
    by_cases hk : k = l
    · subst hk
      simp [hlookup]
    · have : (k == l) = false := beq_false_of_ne hk
      cases hf : files.lookup k <;> simp [hk, List.lookup_cons, this]

/-- A new file is found at its location. -/
theorem get?_of_mem {files : List (Location × Content)} (h : t.Free files)
    {x : Location × Content} (hx : x ∈ files) :
    (t.withFiles files).get? x.1 = some (.file x.2) := by
  rw [h.get?_eq, lookup_of_mem h.nodup hx]
  rfl

/-- Elsewhere than at the new files nothing changes. -/
theorem get?_of_notMem {files : List (Location × Content)} (h : t.Free files) {k : Location}
    (hk : k ∉ files.map Prod.fst) : (t.withFiles files).get? k = t.get? k := by
  rw [h.get?_eq]
  cases hf : files.lookup k with
  | none => rfl
  | some c =>
    obtain ⟨l₁, l₂, heq, -⟩ := List.lookup_eq_some_iff.1 hf
    exact absurd (by simp [heq]) hk

/-- New files make no new directories. -/
theorem isDirectory_eq {files : List (Location × Content)} (h : t.Free files) (k : Location) :
    (t.withFiles files).isDirectory k = t.isDirectory k := by
  unfold isDirectory
  rw [h.get?_eq]
  cases hf : files.lookup k with
  | none => rfl
  | some c =>
    have hk : k ∈ files.map Prod.fst := by
      obtain ⟨l₁, l₂, heq, -⟩ := List.lookup_eq_some_iff.1 hf
      simp [heq]
    simp [(h.get?_none k hk).2]

theorem directoriesKept {files : List (Location × Content)} (h : t.Free files) :
    DirectoriesKept t (t.withFiles files) :=
  ⟨rfl, fun _ hl => by rwa [h.isDirectory_eq]⟩

theorem directoriesKept_back {files : List (Location × Content)} (h : t.Free files) :
    DirectoriesKept (t.withFiles files) t :=
  ⟨rfl, fun _ hl => by rwa [← h.isDirectory_eq]⟩

/-- A file that can be read can be read with new files beside it. -/
theorem read {files : List (Location × Content)} (h : t.Free files) (hread : t.read p = .ok c) :
    (t.withFiles files).read p = .ok c := by
  obtain ⟨hnul, l, hl, hfile⟩ := read_eq_ok.1 hread
  have hget : (t.withFiles files).get? l = some (.file c) := by
    rw [h.get?_of_notMem, hfile]
    intro hmem
    rw [(h.get?_none l hmem).2] at hfile
    cases hfile
  exact read_eq_ok.2 ⟨hnul, l, h.directoriesKept.locate_mono hl (has_iff.2 ⟨_, hget⟩), hget⟩

end Free

end Folio.FileTree
