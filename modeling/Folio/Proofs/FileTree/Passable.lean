import Folio.Proofs.FileTree.Making
import Folio.Proofs.FileTree.Refusals

/-!
# When directories can be made

A directory and its parents can be made exactly if the path is passable
(`makeDirectories_eq_ok_iff`): the file system can be asked about it, none of its names is too long,
and no beginning of it leads to a file. A beginning leads where its components point, `..` undoing
the one before it: what is missing on the way is made on the way.
-/

namespace Folio

open FileTree

/-! ## Beginnings of paths -/

/-- A path with components is written as its anchor and its components. -/
theorem Path.text_of_ne_nil {anchor : Anchor} {parts : List String} (h : parts ≠ []) :
    Path.text ⟨anchor, parts⟩ = anchor.text ++ "/".intercalate parts := by
  cases parts with
  | nil => exact absurd rfl h
  | cons part parts => cases anchor <;> rfl

/-- The beginning of a path that is not too long is not too long. -/
theorem Path.isOverlong_beginning {anchor : Anchor} {parts rest : List String}
    (h : isOverlong (Path.text ⟨anchor, parts ++ rest⟩) = false) :
    isOverlong (Path.text ⟨anchor, parts⟩) = false := by
  by_cases hparts : parts = []
  · rw [hparts]
    cases anchor <;> decide
  by_cases hrest : rest = []
  · rwa [hrest, List.append_nil] at h
  rw [text_of_ne_nil (by simp [hparts]), String.intercalate_append_of_ne_nil hparts hrest] at h
  rw [text_of_ne_nil hparts]
  simp only [isOverlong, decide_eq_false_iff_not, String.utf8ByteSize_append] at h ⊢
  omega

namespace FileTree

variable {t t' : FileTree} {p : Path}

/-- Where a component points from a location. -/
def point (l : Location) (part : String) : Location :=
  if part = ".." then l.dropLast else l ++ [part]

theorem lexical_eq (t : FileTree) (p : Path) : t.lexical p = p.parts.foldl point (t.origin p) := rfl

theorem lexical_concat (t : FileTree) (anchor : Anchor) (parts : List String) (part : String) :
    t.lexical ⟨anchor, parts ++ [part]⟩ = point (t.lexical ⟨anchor, parts⟩) part := by
  simp only [lexical_eq, List.foldl_append]
  rfl

/-- A way that can be followed leads where its components point, and its names are not too long. -/
theorem point_of_walk : ∀ {parts : List String} {dir l : Location}, t.walk dir parts = .ok l →
    l = parts.foldl point dir ∧ ∀ part ∈ parts, part.utf8ByteSize ≤ nameLimit
  | [], dir, l, h => by
    cases h
    exact ⟨rfl, nofun⟩
  | part :: parts, dir, l, h => by
    obtain ⟨s, next, hs, hnext, hw⟩ := walk_cons_eq_ok.1 h
    obtain ⟨hl, hnames⟩ := point_of_walk hw
    rw [List.foldl_cons, List.forall_mem_cons]
    obtain ⟨-, ⟨rfl, rfl⟩ | ⟨hne, hshort, rfl⟩⟩ := spotIn_eq_ok.1 hs
    · cases hnext
      exact ⟨hl, by decide, hnames⟩
    · obtain ⟨-, rfl⟩ := settle_named_eq_ok.1 hnext
      exact ⟨by rw [hl, point, if_neg hne], hshort, hnames⟩

/-- The beginnings of a way to a directory lead to directories. -/
theorem isDirectory_of_walk {parts rest : List String} {dir l : Location}
    (h : t.walk dir (parts ++ rest) = .ok l) (hl : t.isDirectory l = true) :
    t.isDirectory (parts.foldl point dir) = true := by
  rw [walk_append] at h
  split at h
  · next d hd =>
    rw [← (point_of_walk hd).1]
    cases rest with
    | nil =>
      cases h
      exact hl
    | cons part rest =>
      obtain ⟨s, -, hs, -, -⟩ := walk_cons_eq_ok.1 h
      exact (spotIn_eq_ok.1 hs).1
  · cases h

/-- Where a way with short names meets no file, it can only end for want of an entry. -/
theorem noEntry_of_walk (ht : t.WellFormed) :
    ∀ {parts : List String} {dir : Location} {f : Fault}, t.isDirectory dir = true →
      (∀ part ∈ parts, part.utf8ByteSize ≤ nameLimit) →
      (∀ b, b <+: parts → ∀ c, t.get? (b.foldl point dir) ≠ some (.file c)) →
      t.walk dir parts = .error f → f = .noEntry
  | [], dir, f, _, _, _, h => nomatch h
  | part :: parts, dir, f, hdir, hnames, hfile, h => by
    rw [List.forall_mem_cons] at hnames
    have hrest : ∀ b, b <+: parts → ∀ c, t.get? (b.foldl point (point dir part)) ≠
        some (.file c) := fun b hb => hfile (part :: b) (List.cons_prefix_cons.2 ⟨rfl, hb⟩)
    by_cases hup : part = ".."
    · have hs : t.spotIn dir part = .ok (.fixed dir.dropLast) :=
        spotIn_eq_ok.2 ⟨hdir, .inl ⟨hup, rfl⟩⟩
      rw [walk, hs] at h
      rw [point, if_pos hup] at hrest
      exact noEntry_of_walk ht (ht.isDirectory_dropLast hdir) hnames.2 hrest h
    · have hs : t.spotIn dir part = .ok (.named dir part) :=
        spotIn_eq_ok.2 ⟨hdir, .inr ⟨hup, hnames.1, rfl⟩⟩
      rw [walk, hs] at h
      rw [point, if_neg hup] at hrest
      cases hget : t.get? (dir ++ [part]) with
      | none =>
        simp only [settle, has, hget] at h
        cases h
        rfl
      | some e =>
        cases e with
        | file c => exact absurd hget (hrest [] (List.nil_prefix) c)
        | directory =>
          simp only [settle, has, hget] at h
          exact noEntry_of_walk ht (isDirectory_iff.2 hget) hnames.2 hrest h

/-! ## Passable paths -/

/-- Directories can be made to the end of the path: the file system can be asked about it, none of
its names is too long, and no beginning of it leads to a file. -/
structure Passable (t : FileTree) (p : Path) : Prop where
  hasNul : p.hasNul = false
  short : isOverlong p.text = false
  names : ∀ part ∈ p.parts, part.utf8ByteSize ≤ nameLimit
  noFile : ∀ parts, parts <+: p.parts → ∀ c,
    t.get? (t.lexical ⟨p.anchor, parts⟩) ≠ some (.file c)

/-- A path to a directory is seen to lead to one. -/
theorem isDirectoryAt_of_locate {l : Location} (hnul : p.hasNul = false) (hl : t.locate p = .ok l)
    (hdir : t.isDirectory l = true) : t.isDirectoryAt p = .ok true := by
  simp [isDirectoryAt, probe, hnul, hl, isDirectory_iff.1 hdir, Except.map]

/-- The directory at a path has been made, or it is there already. -/
def Settles (t : FileTree) (p : Path) (r : Except FileError FileTree) : Prop :=
  (∃ made, r = .ok made) ∨
    r = .error (.system .alreadyExists p.text) ∧ t.isDirectoryAt p = .ok true

theorem Settles.ne_noEntry {r : Except FileError FileTree} (h : Settles t p r) (text : String) :
    r ≠ .error (.system .noEntry text) := by
  obtain ⟨made, rfl⟩ | ⟨rfl, -⟩ := h <;> exact nofun

theorem Settles.orExisting {r : Except FileError FileTree} (h : Settles t p r) :
    (t.orExisting p r).1 = .ok () := by
  obtain ⟨made, rfl⟩ | ⟨rfl, hdir⟩ := h
  · rfl
  · simp only [FileTree.orExisting, hdir]

namespace Passable

variable {anchor : Anchor} {up : List String} {part : String} {d : Location}

/-- The beginning of a passable path is passable. -/
theorem parent (h : t.Passable ⟨anchor, up ++ [part]⟩) : t.Passable ⟨anchor, up⟩ where
  hasNul := Path.hasNul_eq_false_iff.2 fun q hq =>
    Path.hasNul_eq_false_iff.1 h.hasNul q (List.mem_append_left _ hq)
  short := Path.isOverlong_beginning h.short
  names q hq := h.names q (List.mem_append_left _ hq)
  noFile parts hparts := h.noFile parts (hparts.trans (List.prefix_append ..))

/-- New directories on the way leave it passable. -/
theorem made (h : t.Passable p) {q : Path} (hmade : Made t t' q) : t'.Passable p where
  hasNul := h.hasNul
  short := h.short
  names := h.names
  noFile parts hparts c hc := by
    have hlexical : t'.lexical ⟨p.anchor, parts⟩ = t.lexical ⟨p.anchor, parts⟩ := by
      rw [lexical_eq, lexical_eq, hmade.directoriesKept.origin_eq]
    rw [hlexical] at hc
    rcases hmade.get?_eq (t.lexical ⟨p.anchor, parts⟩) with heq | ⟨-, hdir, -⟩
    · exact h.noFile parts hparts c (heq ▸ hc)
    · cases hdir.symm.trans hc

/-- An entry at the end of a passable path is a directory. -/
theorem isDirectory (h : t.Passable p) (hhas : t.has (t.lexical p) = true) :
    t.isDirectory (t.lexical p) = true := by
  obtain ⟨e, he⟩ := has_iff.1 hhas
  cases e with
  | directory => exact isDirectory_iff.2 he
  | file c => exact absurd he (h.noFile p.parts (List.prefix_refl _) c)

/-- Behind parents that are there, the directory at the end of a passable path is there or can be
made. -/
theorem settles_makeDirectory (ht : t.WellFormed) (h : t.Passable ⟨anchor, up ++ [part]⟩)
    (hwalk : t.walk (t.origin ⟨anchor, up ++ [part]⟩) up = .ok d) :
    Settles t ⟨anchor, up ++ [part]⟩ (t.makeDirectory ⟨anchor, up ++ [part]⟩) := by
  obtain rfl : d = t.lexical ⟨anchor, up⟩ := (point_of_walk hwalk).1
  have hd := h.parent.isDirectory
    (ht.has_of_walk (has_of_isDirectory (ht.isDirectory_origin _)) hwalk)
  have hspot : t.spot ⟨anchor, up ++ [part]⟩ = t.spotIn (t.lexical ⟨anchor, up⟩) part := by
    rw [spot_eq_of_concat rfl, if_neg (by simp [h.short]), hwalk]
  have hlocate : ∀ s l, t.spotIn (t.lexical ⟨anchor, up⟩) part = .ok s → t.settle s = .ok l →
      t.locate ⟨anchor, up ++ [part]⟩ = .ok l := fun s l hs hl => by
    rw [locate, hspot, hs]
    exact hl
  by_cases hup : part = ".."
  · have hs := spotIn_eq_ok.2 ⟨hd, .inl ⟨hup, rfl⟩⟩
    refine .inr ⟨?_, isDirectoryAt_of_locate h.hasNul (hlocate _ _ hs rfl)
      (ht.isDirectory_dropLast hd)⟩
    rw [makeDirectory, ask, if_neg (by simp [h.hasNul]), hspot, hs]
    rfl
  · have hs := spotIn_eq_ok.2 ⟨hd, .inr ⟨hup, h.names part (by simp), rfl⟩⟩
    cases hhas : t.has (t.lexical ⟨anchor, up⟩ ++ [part]) with
    | false =>
      refine .inl ⟨t.put (t.lexical ⟨anchor, up⟩ ++ [part]) .directory, ?_⟩
      rw [makeDirectory, ask, if_neg (by simp [h.hasNul]), hspot, hs]
      dsimp only
      rw [if_neg (by simp [hhas])]
      rfl
    | true =>
      have hend : t.lexical ⟨anchor, up ++ [part]⟩ = t.lexical ⟨anchor, up⟩ ++ [part] := by
        rw [lexical_concat, point, if_neg hup]
      have hdir := h.isDirectory (hend ▸ hhas)
      refine .inr ⟨?_, isDirectoryAt_of_locate h.hasNul
        (hlocate _ _ hs (settle_named_eq_ok.2 ⟨hhas, rfl⟩)) (hend ▸ hdir)⟩
      rw [makeDirectory, ask, if_neg (by simp [h.hasNul]), hspot, hs]
      dsimp only
      rw [if_pos hhas]
      rfl

/-- Without all parents there, the directory at the end of a passable path is refused for that. -/
theorem makeDirectory_of_missing (ht : t.WellFormed) (h : t.Passable ⟨anchor, up ++ [part]⟩)
    {f : Fault} (hwalk : t.walk (t.origin ⟨anchor, up ++ [part]⟩) up = .error f) :
    t.makeDirectory ⟨anchor, up ++ [part]⟩ =
      .error (.system .noEntry (Path.text ⟨anchor, up ++ [part]⟩)) := by
  obtain rfl := noEntry_of_walk ht (ht.isDirectory_origin ⟨anchor, up⟩) h.parent.names
    h.parent.noFile hwalk
  rw [makeDirectory, ask, if_neg (by simp [h.hasNul]), spot_eq_of_concat rfl,
    if_neg (by simp [h.short]), hwalk]
  rfl

/-- A passable path without components leads to the directory that it starts from. -/
theorem settles_origin (ht : t.WellFormed) (h : t.Passable ⟨anchor, []⟩) :
    Settles t ⟨anchor, []⟩ (t.makeDirectory ⟨anchor, []⟩) := by
  have hspot : t.spot ⟨anchor, []⟩ = .ok (.fixed (t.origin ⟨anchor, []⟩)) := by
    rw [spot_eq_of_nil rfl, if_neg (by simp [h.short])]
  have hlocate : t.locate ⟨anchor, []⟩ = .ok (t.origin ⟨anchor, []⟩) := by
    rw [locate, hspot]
    rfl
  refine .inr ⟨?_, isDirectoryAt_of_locate rfl hlocate (ht.isDirectory_origin _)⟩
  rw [makeDirectory, ask, if_neg (by simp [h.hasNul]), hspot]
  rfl

/-- Directories can be made to the end of a passable path. The induction is on its components from
the last one to the first. -/
theorem makeChain : ∀ {limit : Nat} {rev : List String} {t : FileTree}, t.WellFormed →
    rev.length < limit → t.Passable ⟨anchor, rev.reverse⟩ →
    (t.makeChain anchor limit rev).1 = .ok ()
  | limit + 1, [], t, ht, _, h => (h.settles_origin ht).orExisting
  | limit + 1, part :: up, t, ht, hlimit, h => by
    rw [List.reverse_cons] at h
    unfold FileTree.makeChain
    dsimp only
    rw [List.reverse_cons]
    cases hwalk : t.walk (t.origin ⟨anchor, up.reverse ++ [part]⟩) up.reverse with
    | ok d =>
      have hsettles := h.settles_makeDirectory ht hwalk
      split
      · next hmissing => exact absurd hmissing (hsettles.ne_noEntry _)
      · exact hsettles.orExisting
    | error f =>
      -- the parents are made first, and then the directory itself in the tree that they leave
      have hparents : (t.makeChain anchor limit up).1 = .ok () :=
        makeChain ht (Nat.lt_of_succ_lt_succ hlimit) h.parent
      have hmakes := makes_makeChain anchor limit up t ht
      rw [h.makeDirectory_of_missing ht hwalk]
      rcases hchain : t.makeChain anchor limit up with ⟨e | ⟨⟨⟩⟩, next⟩
      · rw [hchain] at hparents
        cases hparents
      · rw [hchain] at hmakes
        obtain ⟨l, hl, -⟩ := hmakes.isDirectory rfl
        rw [locate_eq, if_neg (by simp [h.parent.short])] at hl
        have hsettles := (h.made hmakes.made).settles_makeDirectory hmakes.wellFormed hl
        dsimp only
        split
        · next hmissing => exact absurd hmissing (hsettles.ne_noEntry _)
        · exact hsettles.orExisting

end Passable

/-- A directory that is there now, with the rest of the way, was not in the way of a file. -/
theorem passable_of_makes (h : Makes t p (.ok (), t')) (hnul : p.hasNul = false) :
    t.Passable p := by
  obtain ⟨l, hl, hdir⟩ := h.isDirectory rfl
  rw [locate_eq] at hl
  split at hl
  · cases hl
  next hshort =>
  refine ⟨hnul, by simpa using hshort, (point_of_walk hl).2, fun parts hparts c hc => ?_⟩
  obtain ⟨rest, hrest⟩ := hparts
  have hthere := isDirectory_of_walk (hrest.symm ▸ hl) hdir
  have hfile := h.made.get?_of_some hc
  rw [lexical_eq, ← h.made.directoriesKept.origin_eq] at hfile
  rw [isDirectory_iff] at hthere
  cases hthere.symm.trans hfile

/-- **When a directory and its parents can be made**: if the path is passable, as long as it has not
more components than directories are made at most. -/
theorem makeDirectories_eq_ok_iff (ht : t.WellFormed) (hdepth : p.parts.length < depthLimit) :
    (t.makeDirectories p).1 = .ok () ↔ t.Passable p := by
  constructor
  · intro h
    have hmakes := makes_makeDirectories ht p
    rw [show t.makeDirectories p = (.ok (), (t.makeDirectories p).2) from Prod.ext h rfl] at hmakes
    exact passable_of_makes hmakes (hasNul_of_makeDirectories h)
  · intro h
    refine Passable.makeChain ht (by simpa using hdepth) ?_
    rwa [List.reverse_reverse]

end FileTree

end Folio
