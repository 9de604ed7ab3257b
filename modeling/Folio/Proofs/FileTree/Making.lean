import Folio.Proofs.FileTree.Following

/-!
# Making directories

`makeDirectories` adds directories on the way to its path and changes nothing else, whether or not
it gets to the end of the path (`makes_makeDirectories`). If it succeeds, the path leads to a
directory.
-/

namespace Folio.FileTree

variable {t t' t₁ t₂ : FileTree} {p q : Path}

/-- The locations on the way to a path: where its beginnings lead. -/
def OnWay (t : FileTree) (p : Path) (l : Location) : Prop :=
  ∃ parts, parts <+: p.parts ∧ t.locate ⟨p.anchor, parts⟩ = .ok l

/-- A directory on the way to a path stays there as long as directories are kept. -/
theorem OnWay.mono {l : Location} (h : t.OnWay p l) (hkept : DirectoriesKept t t')
    (hl : t.isDirectory l = true) : t'.OnWay p l := by
  obtain ⟨parts, hpre, hloc⟩ := h
  exact ⟨parts, hpre, hkept.locate_mono hloc (has_of_isDirectory (hkept.isDirectory l hl))⟩

/-- The second tree is the first with new directories on the way to a path. -/
structure Made (t t' : FileTree) (p : Path) : Prop where
  cwd : t'.cwd = t.cwd
  get?_eq : ∀ l, t'.get? l = t.get? l ∨
    (t.get? l = none ∧ t'.get? l = some .directory ∧ t'.OnWay p l)

namespace Made

theorem refl (t : FileTree) (p : Path) : Made t t p := ⟨rfl, fun _ => .inl rfl⟩

/-- What was there stays. -/
theorem get?_of_some (h : Made t t' p) {l : Location} {e : Entry} (hl : t.get? l = some e) :
    t'.get? l = some e := by
  rcases h.get?_eq l with heq | ⟨hnone, -⟩
  · exact heq.trans hl
  · rw [hl] at hnone
    cases hnone

theorem directoriesKept (h : Made t t' p) : DirectoriesKept t t' :=
  ⟨h.cwd, fun _ hl => isDirectory_iff.2 (h.get?_of_some (isDirectory_iff.1 hl))⟩

/-- The way to a longer path holds that to a shorter one. -/
theorem mono (h : Made t t' q) (hanchor : q.anchor = p.anchor) (hparts : q.parts <+: p.parts) :
    Made t t' p where
  cwd := h.cwd
  get?_eq l := by
    rcases h.get?_eq l with heq | ⟨hnone, hdir, parts, hpre, hloc⟩
    · exact .inl heq
    · exact .inr ⟨hnone, hdir, parts, hpre.trans hparts, hanchor ▸ hloc⟩

theorem trans (h₁ : Made t t₁ p) (h₂ : Made t₁ t₂ p) : Made t t₂ p where
  cwd := h₂.cwd.trans h₁.cwd
  get?_eq l := by
    rcases h₁.get?_eq l with heq | ⟨hnone, hdir, hway⟩
    · rw [← heq]
      exact h₂.get?_eq l
    · exact .inr ⟨hnone, h₂.get?_of_some hdir,
        hway.mono h₂.directoriesKept (isDirectory_iff.2 hdir)⟩

end Made

/-- The outcome of an operation that is to leave a directory at the end of a path. -/
structure Makes (t : FileTree) (p : Path) (r : Except FileError Unit × FileTree) : Prop where
  made : Made t r.2 p
  wellFormed : r.2.WellFormed
  isDirectory : r.1 = .ok () → ∃ l, r.2.locate p = .ok l ∧ r.2.isDirectory l = true

theorem Makes.of_error (ht : t.WellFormed) (p : Path) (e : FileError) :
    Makes t p (.error e, t) :=
  ⟨.refl t p, ht, fun h => by cases h⟩

/-- One directory is made where the path leads to nothing yet. -/
theorem makeDirectory_eq_ok (h : t.makeDirectory p = .ok t') :
    ∃ d n, t.spot p = .ok (.named d n) ∧ t.get? (d ++ [n]) = none ∧
      t' = t.put (d ++ [n]) .directory := by
  unfold makeDirectory ask at h
  split at h
  · cases h
  · cases hs : t.spot p with
    | error f => rw [hs] at h; cases h
    | ok s =>
      rw [hs] at h
      cases s with
      | fixed d => cases h
      | named d n =>
        simp only at h
        split at h
        · cases h
        · next hfree =>
          cases h
          exact ⟨d, n, rfl, by simpa [has] using hfree, rfl⟩

/-- An entry that is put in a directory leaves the tree well formed, unless it takes a directory's
place. -/
theorem WellFormed.put (ht : t.WellFormed) {d : Location} {n : String} {e : Entry}
    (hd : t.isDirectory d = true) (hkept : DirectoriesKept t (t.put (d ++ [n]) e)) :
    (t.put (d ++ [n]) e).WellFormed := by
  refine ⟨?_, fun l hl hhas => ?_⟩
  · rw [cwd_put]
    exact hkept.isDirectory _ ht.cwd
  · by_cases hln : l = d ++ [n]
    · rw [hln, List.dropLast_concat]
      exact hkept.isDirectory _ hd
    · obtain ⟨e, he⟩ := has_iff.1 hhas
      rw [get?_put t (by simp), if_neg hln] at he
      exact hkept.isDirectory _ (ht.parent l hl (has_iff.2 ⟨e, he⟩))

theorem directoriesKept_put_directory {l : Location} (hl : l ≠ []) :
    DirectoriesKept t (t.put l .directory) := by
  refine ⟨cwd_put .., fun k hk => isDirectory_iff.2 ?_⟩
  rw [get?_put t hl]
  split
  · rfl
  · exact isDirectory_iff.1 hk

theorem directoriesKept_put_file {l : Location} (hl : l ≠ []) (hdir : t.isDirectory l = false)
    (c : Content) : DirectoriesKept t (t.put l (.file c)) := by
  refine ⟨cwd_put .., fun k hk => isDirectory_iff.2 ?_⟩
  rw [get?_put t hl]
  split
  · next hkl =>
    rw [hkl, hdir] at hk
    cases hk
  · exact isDirectory_iff.1 hk

/-- Making one directory makes it, and nothing else. -/
theorem makes_of_makeDirectory (ht : t.WellFormed) (h : t.makeDirectory p = .ok t') :
    Makes t p (.ok (), t') := by
  obtain ⟨d, n, hs, hnone, rfl⟩ := makeDirectory_eq_ok h
  have hkept := directoriesKept_put_directory (t := t) (l := d ++ [n]) (by simp)
  have hwell := ht.put (isDirectory_of_spot hs) hkept
  have hget := get?_put t (l := d ++ [n]) (by simp) .directory
  have hdir : (t.put (d ++ [n]) .directory).get? (d ++ [n]) = some .directory := by
    rw [hget, if_pos rfl]
  have hloc : (t.put (d ++ [n]) .directory).locate p = .ok (d ++ [n]) := by
    simp [locate, hkept.spot_mono hs, settle, has, hdir]
  refine ⟨⟨cwd_put .., fun l => ?_⟩, hwell, fun _ => ⟨_, hloc, isDirectory_iff.2 hdir⟩⟩
  by_cases hl : l = d ++ [n]
  · subst hl
    exact .inr ⟨hnone, hdir, p.parts, List.prefix_refl _, hloc⟩
  · exact .inl (by rw [hget, if_neg hl])

/-- A directory that exists already is as good as a new one. -/
theorem makes_orExisting (ht : t.WellFormed) (r : Except FileError FileTree)
    (hr : ∀ next, r = .ok next → Makes t p (.ok (), next)) : Makes t p (t.orExisting p r) := by
  unfold orExisting
  split
  · next next => exact hr next rfl
  · exact .of_error ht p _
  · split
    · next h =>
      refine ⟨.refl t p, ht, fun _ => ?_⟩
      simp only [isDirectoryAt, probe] at h
      split at h
      · cases h
      · split at h
        · next l hl =>
          refine ⟨l, hl, isDirectory_iff.2 ?_⟩
          simp only [Except.map, Except.ok.injEq] at h
          split at h
          · assumption
          · cases h
        all_goals cases h
    · exact .of_error ht p _
    · exact .of_error ht p _

/-- The recursion of `makeDirectories`: what the parents leave is where the path itself is made. -/
theorem makes_makeChain (anchor : Anchor) :
    ∀ (limit : Nat) (rev : List String) (t : FileTree), t.WellFormed →
      Makes t ⟨anchor, rev.reverse⟩ (t.makeChain anchor limit rev)
  | 0, _, t, ht => .of_error ht _ _
  | _ + 1, [], t, ht => makes_orExisting ht _ fun _ h => makes_of_makeDirectory ht h
  | limit + 1, part :: up, t, ht => by
    unfold makeChain
    dsimp only
    split
    · have ih := makes_makeChain anchor limit up t ht
      have hway : up.reverse <+: (part :: up).reverse := by simp
      have hmade := ih.made.mono (p := ⟨anchor, (part :: up).reverse⟩) rfl hway
      split
      · next e next h =>
        rw [h] at ih hmade
        exact ⟨hmade, ih.wellFormed, fun h => by cases h⟩
      · next next h =>
        rw [h] at ih hmade
        split
        · exact ⟨hmade, ih.wellFormed, fun h => by cases h⟩
        · have hlast := makes_orExisting (p := ⟨anchor, (part :: up).reverse⟩) ih.wellFormed _
            fun _ h => makes_of_makeDirectory ih.wellFormed h
          exact ⟨hmade.trans hlast.made, hlast.wellFormed, hlast.isDirectory⟩
    · exact makes_orExisting ht _ fun _ h => makes_of_makeDirectory ht h

/-- **Making directories only makes directories.** -/
theorem makes_makeDirectories (ht : t.WellFormed) (p : Path) :
    Makes t p (t.makeDirectories p) := by
  have h := makes_makeChain p.anchor depthLimit p.parts.reverse t ht
  rwa [List.reverse_reverse] at h

end Folio.FileTree
