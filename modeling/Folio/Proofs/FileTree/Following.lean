import Mathlib.Data.List.Induction
import Folio.FileTree.Lemmas
import Folio.FileTree.Operations

/-!
# Where paths lead

Following a path to a spot asks the tree only which locations are directories: a spot that was found
is found again in every tree that has these directories (`spot_mono`). So changes of files do not
move the spots of paths, and new directories only add spots.

A tree is well formed if every entry lies in a directory. Then a path that can be followed leads to
an entry (`has_of_locate`).
-/

namespace Folio.FileTree

variable {t t' : FileTree}

/-! ## Directories -/

theorem isDirectory_iff {l : Location} : t.isDirectory l = true ↔ t.get? l = some .directory := by
  unfold isDirectory
  split
  · next h => simp [h]
  · next h => exact ⟨fun h' => (Bool.false_ne_true h').elim, fun h' => (h h').elim⟩

theorem has_iff {l : Location} : t.has l = true ↔ ∃ e, t.get? l = some e :=
  Option.isSome_iff_exists

theorem has_of_isDirectory {l : Location} (h : t.isDirectory l = true) : t.has l = true :=
  has_iff.2 ⟨_, isDirectory_iff.1 h⟩

theorem not_isDirectory_of_file {l : Location} {c : Content} (h : t.get? l = some (.file c)) :
    t.isDirectory l = false := by
  simp [isDirectory, h]

/-- Where only something that was no directory has gone, the directories are the same. -/
theorem isDirectory_eq_of_get? {l : Location} (hl : t.isDirectory l = false)
    (hget : ∀ k, t'.get? k = if k = l then none else t.get? k) (k : Location) :
    t'.isDirectory k = t.isDirectory k := by
  by_cases hk : k = l
  · have hnone : t'.get? l = none := by rw [hget, if_pos rfl]
    rw [hk, hl]
    simp only [isDirectory, hnone]
  · simp only [isDirectory, hget k, if_neg hk]

/-- A tree is well formed if relative paths start from a directory and every entry lies in one. -/
structure WellFormed (t : FileTree) : Prop where
  cwd : t.isDirectory t.cwd = true
  parent : ∀ l, l ≠ [] → t.has l = true → t.isDirectory l.dropLast = true

namespace WellFormed

/-- Whether a tree is well formed shows in its entries. -/
theorem of_entries (hcwd : t.isDirectory t.cwd = true)
    (h : ∀ x ∈ t.entries, t.isDirectory x.1.dropLast = true) : t.WellFormed := by
  refine ⟨hcwd, fun l hl hhas => ?_⟩
  obtain ⟨e, he⟩ := has_iff.1 hhas
  rw [get?, if_neg hl] at he
  obtain ⟨l₁, l₂, hentries, -⟩ := List.lookup_eq_some_iff.1 he
  exact h (l, e) (by simp [hentries])

/-- The tree with nothing but the way to a directory is well formed. -/
theorem start (cwd : Location) : (FileTree.start cwd).WellFormed := by
  have hdir : ∀ i ≤ cwd.length, (FileTree.start cwd).isDirectory (cwd.take i) = true := by
    intro i hi
    rw [isDirectory_iff, get?]
    split
    · rfl
    · next hne =>
      obtain ⟨j, rfl⟩ : ∃ j, i = j + 1 := Nat.exists_eq_succ_of_ne_zero fun h => hne (by simp [h])
      obtain ⟨e, he⟩ : ∃ e, (FileTree.start cwd).entries.lookup (cwd.take (j + 1)) = some e :=
        Option.isSome_iff_exists.1 <| List.lookup_isSome_iff.2
          ⟨_, List.mem_map_of_mem (List.mem_range.2 hi), by simp⟩
      obtain ⟨l₁, l₂, hentries, -⟩ := List.lookup_eq_some_iff.1 he
      have hmem : (cwd.take (j + 1), e) ∈ (FileTree.start cwd).entries := by simp [hentries]
      obtain ⟨k, -, hk⟩ := List.mem_map.1 hmem
      rw [Prod.mk.injEq] at hk
      rw [he, ← hk.2]
  refine of_entries ?_ fun x hx => ?_
  · have h := hdir cwd.length (Nat.le_refl _)
    rwa [List.take_length] at h
  · obtain ⟨i, hi, rfl⟩ := List.mem_map.1 hx
    have hi : i < cwd.length := List.mem_range.1 hi
    have hup : (cwd.take (i + 1)).dropLast = cwd.take i := by
      rw [List.dropLast_eq_take, List.length_take, List.take_take]
      congr 1
      omega
    exact hup ▸ hdir i (by omega)

/-- The locations above an entry are directories. -/
theorem isDirectory_of_prefix (h : t.WellFormed) {k l : Location} (hl : t.has l = true)
    (hk : k <+: l) (hne : k ≠ l) : t.isDirectory k = true := by
  obtain ⟨rest, rfl⟩ := hk
  induction rest using List.reverseRecOn with
  | nil => simp at hne
  | append_singleton rest name ih =>
    have hup : t.isDirectory (k ++ rest) = true := by
      have := h.parent (k ++ (rest ++ [name])) (by simp) hl
      rwa [← List.append_assoc, List.dropLast_concat] at this
    by_cases hrest : rest = []
    · subst hrest
      rwa [List.append_nil] at hup
    · exact ih (has_of_isDirectory hup) (by simpa using hrest)

/-- Nothing lies below a file. -/
theorem get?_below_file (h : t.WellFormed) {k l : Location} {c : Content}
    (hk : t.get? k = some (.file c)) (hp : k <+: l) (hne : k ≠ l) : t.get? l = none := by
  cases hl : t.get? l with
  | none => rfl
  | some e =>
    have := h.isDirectory_of_prefix (has_iff.2 ⟨e, hl⟩) hp hne
    rw [not_isDirectory_of_file hk] at this
    cases this

/-- A file lies above no directory. -/
theorem not_prefix_of_file (h : t.WellFormed) {k l : Location} {c : Content}
    (hk : t.get? k = some (.file c)) (hl : t.isDirectory l = true) : ¬ k <+: l := by
  intro hp
  by_cases hne : k = l
  · rw [← hne, not_isDirectory_of_file hk] at hl
    cases hl
  · have := h.get?_below_file hk hp hne
    rw [isDirectory_iff, this] at hl
    cases hl

/-- Nothing lies below a location without an entry. -/
theorem get?_below_none (h : t.WellFormed) {k l : Location} (hk : t.get? k = none)
    (hp : k <+: l) : t.get? l = none := by
  by_cases hne : k = l
  · exact hne ▸ hk
  · cases hl : t.get? l with
    | none => rfl
    | some e =>
      have := h.isDirectory_of_prefix (has_iff.2 ⟨e, hl⟩) hp hne
      rw [isDirectory_iff, hk] at this
      cases this

/-- Directories lie in directories, the root included. -/
theorem isDirectory_dropLast (h : t.WellFormed) {l : Location} (hl : t.isDirectory l = true) :
    t.isDirectory l.dropLast = true := by
  by_cases hne : l = []
  · simpa [hne] using hl
  · exact h.parent l hne (has_of_isDirectory hl)

theorem isDirectory_origin (h : t.WellFormed) (p : Path) : t.isDirectory (t.origin p) = true := by
  unfold origin
  split
  · exact h.cwd
  · exact isDirectory_iff.2 (get?_root t)

end WellFormed

/-! ## Following components -/

/-- One component of a path: where it is seen from must be a directory. -/
theorem spotIn_eq_ok {dir : Location} {part : String} {s : Spot} :
    t.spotIn dir part = .ok s ↔
      t.isDirectory dir = true ∧
        (part = ".." ∧ s = .fixed dir.dropLast ∨
          part ≠ ".." ∧ part.utf8ByteSize ≤ nameLimit ∧ s = .named dir part) := by
  unfold spotIn
  grind

/-- A name leads to its entry. -/
theorem settle_named_eq_ok {dir l : Location} {name : String} :
    t.settle (.named dir name) = .ok l ↔ t.has (dir ++ [name]) = true ∧ l = dir ++ [name] := by
  unfold settle
  grind

/-- The first step of a way, and the rest of it. -/
theorem walk_cons_eq_ok {dir l : Location} {part : String} {parts : List String} :
    t.walk dir (part :: parts) = .ok l ↔
      ∃ s next, t.spotIn dir part = .ok s ∧ t.settle s = .ok next ∧
        t.walk next parts = .ok l := by
  simp only [walk]
  cases t.spotIn dir part with
  | error f => simp
  | ok s => cases h : t.settle s <;> simp [h]

theorem walk_append (dir : Location) (ps qs : List String) :
    t.walk dir (ps ++ qs) =
      match t.walk dir ps with
      | .ok d => t.walk d qs
      | .error f => .error f := by
  induction ps generalizing dir with
  | nil => rfl
  | cons p ps ih =>
    simp only [List.cons_append, walk]
    split
    · rfl
    · split
      · rfl
      · exact ih _

/-- Following one component is settling its spot. -/
theorem walk_singleton (dir : Location) (part : String) :
    t.walk dir [part] =
      match t.spotIn dir part with
      | .ok s => t.settle s
      | .error f => .error f := by
  simp only [walk]
  split
  · next h => simp [h]
  · next s h =>
    simp only [h]
    split <;> simp_all

/-- Where a path with a last component leads. -/
theorem spot_eq_of_concat {p : Path} {up : List String} {name : String}
    (hp : p.parts = up ++ [name]) :
    t.spot p =
      if isOverlong p.text then .error .nameTooLong
      else
        match t.walk (t.origin p) up with
        | .ok dir => t.spotIn dir name
        | .error f => .error f := by
  unfold spot
  rw [hp, List.getLast?_concat, List.dropLast_concat]
  split
  · rfl
  · cases t.walk (t.origin p) up <;> rfl

/-- Where a path without components leads. -/
theorem spot_eq_of_nil {p : Path} (hp : p.parts = []) :
    t.spot p =
      if isOverlong p.text then .error .nameTooLong else .ok (.fixed (t.origin p)) := by
  unfold spot
  rw [hp, List.getLast?_nil]

/-- The location of a path is where all its components lead. -/
theorem locate_eq (p : Path) :
    t.locate p =
      if isOverlong p.text then .error .nameTooLong else t.walk (t.origin p) p.parts := by
  unfold locate
  rcases List.eq_nil_or_concat p.parts with hnil | ⟨up, name, hparts⟩
  · rw [spot_eq_of_nil hnil, hnil]
    by_cases hlen : isOverlong p.text = true <;> simp [hlen, walk, settle]
  · rw [List.concat_eq_append] at hparts
    rw [spot_eq_of_concat hparts, hparts, walk_append]
    by_cases hlen : isOverlong p.text = true
    · simp [hlen]
    · simp only [hlen, Bool.false_eq_true, if_false]
      cases t.walk (t.origin p) up with
      | error f => rfl
      | ok dir =>
        simp only [walk_singleton]
        cases t.spotIn dir name <;> rfl

/-- A spot is named in a directory. -/
theorem isDirectory_of_spot {p : Path} {dir : Location} {name : String}
    (h : t.spot p = .ok (.named dir name)) : t.isDirectory dir = true := by
  unfold spot at h
  split at h
  · cases h
  · split at h
    · cases h
    · split at h
      · cases h
      · obtain ⟨hdir, ⟨-, hs⟩ | ⟨-, -, hs⟩⟩ := spotIn_eq_ok.1 h
        · cases hs
        · cases hs
          exact hdir

/-- A spot that is named by no component of its own is a directory. -/
theorem WellFormed.isDirectory_of_spot_fixed (h : t.WellFormed) {p : Path} {dir : Location}
    (hs : t.spot p = .ok (.fixed dir)) : t.isDirectory dir = true := by
  rcases List.eq_nil_or_concat p.parts with hnil | ⟨up, name, hparts⟩
  · rw [spot_eq_of_nil hnil] at hs
    split at hs
    · cases hs
    · cases hs
      exact h.isDirectory_origin p
  · rw [List.concat_eq_append] at hparts
    rw [spot_eq_of_concat hparts] at hs
    split at hs
    · cases hs
    · split at hs
      · obtain ⟨hd, ⟨-, hs⟩ | ⟨-, -, hs⟩⟩ := spotIn_eq_ok.1 hs
        · cases hs
          exact h.isDirectory_dropLast hd
        · cases hs
      · cases hs

/-- In a well-formed tree a way that can be followed leads to an entry. -/
theorem WellFormed.has_of_walk (h : t.WellFormed) :
    ∀ {parts : List String} {dir l : Location}, t.has dir = true →
      t.walk dir parts = .ok l → t.has l = true
  | [], dir, l, hdir, hw => by
    cases hw
    exact hdir
  | part :: parts, dir, l, hdir, hw => by
    obtain ⟨s, next, hs, hnext, hw⟩ := walk_cons_eq_ok.1 hw
    refine h.has_of_walk ?_ hw
    obtain ⟨hd, ⟨-, rfl⟩ | ⟨-, -, rfl⟩⟩ := spotIn_eq_ok.1 hs
    · cases hnext
      exact has_of_isDirectory (h.isDirectory_dropLast hd)
    · obtain ⟨hhas, rfl⟩ := settle_named_eq_ok.1 hnext
      exact hhas

theorem WellFormed.has_of_locate (h : t.WellFormed) {p : Path} {l : Location}
    (hl : t.locate p = .ok l) : t.has l = true := by
  rw [locate_eq] at hl
  split at hl
  · cases hl
  · exact h.has_of_walk (has_of_isDirectory (h.isDirectory_origin p)) hl

/-! ## Paths in two trees -/

/-- The directories of one tree are directories of another. -/
structure DirectoriesKept (t t' : FileTree) : Prop where
  cwd : t'.cwd = t.cwd
  isDirectory : ∀ l, t.isDirectory l = true → t'.isDirectory l = true

namespace DirectoriesKept

theorem trans {t₁ t₂ t₃ : FileTree} (h : DirectoriesKept t₁ t₂) (h' : DirectoriesKept t₂ t₃) :
    DirectoriesKept t₁ t₃ :=
  ⟨h'.cwd.trans h.cwd, fun l hl => h'.isDirectory l (h.isDirectory l hl)⟩

theorem origin_eq (h : DirectoriesKept t t') (p : Path) : t'.origin p = t.origin p := by
  unfold origin
  rw [h.cwd]

theorem spotIn_mono (h : DirectoriesKept t t') {dir : Location} {part : String} {s : Spot}
    (hs : t.spotIn dir part = .ok s) : t'.spotIn dir part = .ok s := by
  rw [spotIn_eq_ok] at hs ⊢
  exact ⟨h.isDirectory _ hs.1, hs.2⟩

/-- A spot that is settled in one tree is settled in the other, if the way goes on from there or
there is an entry at its end. -/
theorem settle_mono (h : DirectoriesKept t t') {s : Spot} {next l : Location}
    {parts : List String} (hs : t.settle s = .ok next) (hw : t.walk next parts = .ok l)
    (hl : t'.has l = true) : t'.settle s = .ok next := by
  cases s with
  | fixed d => exact hs
  | named d name =>
    obtain ⟨-, rfl⟩ := settle_named_eq_ok.1 hs
    refine settle_named_eq_ok.2 ⟨?_, rfl⟩
    cases parts with
    | nil =>
      cases hw
      exact hl
    | cons q qs =>
      obtain ⟨_, _, hq, -, -⟩ := walk_cons_eq_ok.1 hw
      exact has_of_isDirectory (h.isDirectory _ (spotIn_eq_ok.1 hq).1)

/-- A way to a location that has an entry in the other tree too is found there. -/
theorem walk_mono (h : DirectoriesKept t t') :
    ∀ {parts : List String} {dir l : Location}, t.walk dir parts = .ok l → t'.has l = true →
      t'.walk dir parts = .ok l
  | [], _, _, hw, _ => hw
  | part :: parts, dir, l, hw, hl => by
    obtain ⟨s, next, hs, hnext, hw⟩ := walk_cons_eq_ok.1 hw
    exact walk_cons_eq_ok.2
      ⟨s, next, h.spotIn_mono hs, h.settle_mono hnext hw hl, h.walk_mono hw hl⟩

/-- **A spot stays where it is** as long as the directories are kept. -/
theorem spot_mono (h : DirectoriesKept t t') {p : Path} {s : Spot} (hs : t.spot p = .ok s) :
    t'.spot p = .ok s := by
  rcases List.eq_nil_or_concat p.parts with hnil | ⟨up, name, hparts⟩
  · rw [spot_eq_of_nil hnil] at hs ⊢
    rwa [h.origin_eq]
  · rw [List.concat_eq_append] at hparts
    rw [spot_eq_of_concat hparts] at hs ⊢
    split at hs
    · cases hs
    · next hlen =>
      rw [if_neg hlen, h.origin_eq]
      split at hs
      · next dir hw =>
        have hdir := h.isDirectory _ (spotIn_eq_ok.1 hs).1
        rw [h.walk_mono hw (has_of_isDirectory hdir)]
        exact h.spotIn_mono hs
      · cases hs

/-- A path that leads to an entry leads there in the other tree, if there is one. -/
theorem locate_mono (h : DirectoriesKept t t') {p : Path} {l : Location}
    (hl : t.locate p = .ok l) (hhas : t'.has l = true) : t'.locate p = .ok l := by
  rw [locate_eq] at hl ⊢
  split at hl
  · cases hl
  · next hlen =>
    rw [if_neg hlen, h.origin_eq]
    exact h.walk_mono hl hhas

end DirectoriesKept

end Folio.FileTree
