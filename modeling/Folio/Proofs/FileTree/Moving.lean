import Folio.FileTree.Move
import Folio.Proofs.FileTree.Following

/-!
# Moving a file

In a well-formed tree a move of a file either puts it at one new location, where no directory was,
and changes nothing else, or it is refused and changes nothing (`move_file_cases`). The fallback of
`move`, which copies, never comes to anything for files: where a file cannot be renamed to, it
cannot be written either.
-/

namespace Folio.FileTree

variable {t t' : FileTree} {a b : Location} {c : Content}

/-! ## What a move of a file changes -/

/-- The file at `a`, with content `c`, has been moved to `b`. -/
structure Moved (t t' : FileTree) (a b : Location) (c : Content) : Prop where
  cwd : t'.cwd = t.cwd
  get?_eq : ∀ k, t'.get? k =
    if k = b then some (.file c) else if k = a then none else t.get? k

namespace Moved

/-- A moved file replaces no directory, so the directories stay the same. -/
theorem isDirectory_eq (h : Moved t t' a b c) (ha : t.isDirectory a = false)
    (hb : t.isDirectory b = false) (l : Location) : t'.isDirectory l = t.isDirectory l := by
  have hl := h.get?_eq l
  by_cases hlb : l = b
  · rw [hlb, hb]
    exact not_isDirectory_of_file (c := c) (by simpa [hlb] using h.get?_eq b)
  · by_cases hla : l = a
    · have hnone : t'.get? a = none := by simpa [hla ▸ hlb, hla] using hl
      rw [hla, ha]
      simp [isDirectory, hnone]
    · simp only [hlb, hla, if_false] at hl
      simp only [isDirectory, hl]

theorem directoriesKept (h : Moved t t' a b c) (ha : t.isDirectory a = false)
    (hb : t.isDirectory b = false) : DirectoriesKept t t' :=
  ⟨h.cwd, fun l hl => h.isDirectory_eq ha hb l ▸ hl⟩

theorem directoriesKept_back (h : Moved t t' a b c) (ha : t.isDirectory a = false)
    (hb : t.isDirectory b = false) : DirectoriesKept t' t :=
  ⟨h.cwd.symm, fun l hl => h.isDirectory_eq ha hb l ▸ hl⟩

/-- A tree stays well formed when a file is moved into a directory. -/
theorem wellFormed (h : Moved t t' a b c) (ht : t.WellFormed) (ha : t.isDirectory a = false)
    (hb : t.isDirectory b = false) (hdir : t.isDirectory b.dropLast = true) : t'.WellFormed where
  cwd := by rw [h.cwd, h.isDirectory_eq ha hb]; exact ht.cwd
  parent l hl hhas := by
    rw [h.isDirectory_eq ha hb]
    by_cases hlb : l = b
    · exact hlb ▸ hdir
    · by_cases hla : l = a
      · obtain ⟨e, he⟩ := has_iff.1 hhas
        simp [h.get?_eq, hla ▸ hlb, hla] at he
      · refine ht.parent l hl (has_iff.2 ?_)
        obtain ⟨e, he⟩ := has_iff.1 hhas
        exact ⟨e, by simpa [h.get?_eq, hlb, hla] using he⟩

end Moved

/-! ## Renaming -/

/-- A file lies neither above nor below another place for a file. -/
theorem WellFormed.unrelated (ht : t.WellFormed) (hfile : t.get? a = some (.file c))
    (hb : t.isDirectory b = false) (hup : t.isDirectory b.dropLast = true) (hab : a ≠ b) :
    a.isPrefixOf b = false ∧ b.isPrefixOf a = false := by
  constructor
  · rw [← Bool.not_eq_true, List.isPrefixOf_iff_prefix]
    intro hpre
    rcases List.eq_nil_or_concat b with rfl | ⟨d, n, hconcat⟩
    · exact hab (List.prefix_nil.1 hpre)
    · rw [List.concat_eq_append] at hconcat
      rw [hconcat, List.dropLast_concat] at hup
      rcases List.prefix_concat_iff.1 (hconcat ▸ hpre) with h | h
      · exact hab (h.trans hconcat.symm)
      · exact ht.not_prefix_of_file hfile hup h
  · rw [← Bool.not_eq_true, List.isPrefixOf_iff_prefix]
    intro hpre
    have := ht.isDirectory_of_prefix (has_iff.2 ⟨_, hfile⟩) hpre (Ne.symm hab)
    rw [hb] at this
    cases this

/-- A file is carried over to where nothing is. -/
theorem moved_relocate (ht : t.WellFormed) (ha : a ≠ []) (hb : b ≠ [])
    (hfile : t.get? a = some (.file c)) (hnone : t.get? b = none) :
    Moved t (t.relocate a b) a b c := by
  refine ⟨rfl, fun k => ?_⟩
  rw [get?_relocate t ha hb, hfile]
  · intro x hx hne
    exact ht.get?_below_file hfile (List.isPrefixOf_iff_prefix.1 hx) (Ne.symm hne)
  · intro x hx
    exact ht.get?_below_none hnone (List.isPrefixOf_iff_prefix.1 hx)

/-- A file is carried over to where another file was, which is gone then. -/
theorem moved_erase_relocate {old : Content} (ht : t.WellFormed) (ha : a ≠ []) (hb : b ≠ [])
    (hab : a ≠ b) (hfile : t.get? a = some (.file c)) (hold : t.get? b = some (.file old)) :
    Moved t ((t.erase b).relocate a b) a b c := by
  refine ⟨rfl, fun k => ?_⟩
  rw [get?_relocate _ ha hb, get?_erase t hb, get?_erase t hb, if_neg hab, hfile]
  · by_cases hk : k = b <;> simp [hk]
  · intro x hx hne
    rw [get?_erase t hb, ht.get?_below_file hfile (List.isPrefixOf_iff_prefix.1 hx) (Ne.symm hne),
      ite_self]
  · intro x hx
    rw [get?_erase t hb]
    split
    · rfl
    · next hxb => exact ht.get?_below_file hold (List.isPrefixOf_iff_prefix.1 hx) (Ne.symm hxb)

/-- A file is renamed to any location in a directory that is no directory itself. -/
theorem rename_file (ht : t.WellFormed) {source target : Path} {d d' : Location} {n n' : String}
    (hsource : t.spot source = .ok (.named d n)) (hfile : t.get? (d ++ [n]) = some (.file c))
    (htarget : t.spot target = .ok (.named d' n')) (hb : t.isDirectory (d' ++ [n']) = false) :
    ∃ t', t.rename source target = .ok t' ∧ Moved t t' (d ++ [n]) (d' ++ [n']) c := by
  have hdir : t.isDirectory (d' ++ [n']).dropLast = true := by
    rw [List.dropLast_concat]
    exact isDirectory_of_spot htarget
  generalize ha : d ++ [n] = a at *
  generalize hb' : d' ++ [n'] = b at *
  have hane : a ≠ [] := by simp [← ha]
  have hbne : b ≠ [] := by simp [← hb']
  by_cases hab : a = b
  · subst hab
    refine ⟨t, by simp [rename, hsource, htarget, ha, hb', hfile], rfl, fun k => ?_⟩
    by_cases hk : k = a <;> simp [hk, hfile]
  obtain ⟨hup, hdown⟩ := ht.unrelated hfile hb hdir hab
  cases hold : t.get? b with
  | none =>
    refine ⟨t.relocate a b, ?_, moved_relocate ht hane hbne hfile hold⟩
    simp [rename, hsource, htarget, ha, hb', hfile, hold, hab, hup, hdown]
  | some e =>
    cases e with
    | directory =>
      rw [isDirectory_iff.2 hold] at hb
      cases hb
    | file old =>
      refine ⟨(t.erase b).relocate a b, ?_, moved_erase_relocate ht hane hbne hab hfile hold⟩
      simp [rename, hsource, htarget, ha, hb', hfile, hold, hab, hup, hdown]

/-- A file is renamed to nothing else. -/
theorem rename_file_error {source target : Path} {d : Location} {n : String}
    (hsource : t.spot source = .ok (.named d n)) (hfile : t.get? (d ++ [n]) = some (.file c))
    (htarget : ∀ d' n', t.spot target = .ok (.named d' n') → t.isDirectory (d' ++ [n']) = true) :
    ∃ f, t.rename source target = .error f := by
  unfold rename
  rw [hsource]
  cases hspot : t.spot target with
  | error f => exact ⟨f, rfl⟩
  | ok s =>
    cases s with
    | fixed d' => exact ⟨.busy, rfl⟩
    | named d' n' =>
      have hb := isDirectory_iff.1 (htarget d' n' hspot)
      have hab : d ++ [n] ≠ d' ++ [n'] := by
        intro h
        rw [h, hb] at hfile
        cases hfile
      simp only [hfile, hb, hab, if_false]
      split
      · exact ⟨_, rfl⟩
      · split <;> exact ⟨_, rfl⟩

/-! ## Moving -/

/-- Where a file that is moved to a path lands: at the location that the path names, or inside the
directory that the path leads to, under its own name. -/
def LandsAt (t : FileTree) (source target : Path) (b : Location) : Prop :=
  (t.isDirectory b = false ∧ ∃ d n, t.spot target = .ok (.named d n) ∧ b = d ++ [n]) ∨
    (t.has b = false ∧ ∃ d, t.locate target = .ok d ∧ t.isDirectory d = true ∧
      b = d ++ [source.name])

/-- A file lands in a directory and replaces none. -/
theorem LandsAt.isDirectory {source target : Path} (h : t.LandsAt source target b) :
    t.isDirectory b = false ∧ t.isDirectory b.dropLast = true := by
  rcases h with ⟨hb, d, n, hs, rfl⟩ | ⟨hb, d, -, hd, rfl⟩
  · exact ⟨hb, by simpa using isDirectory_of_spot hs⟩
  · refine ⟨?_, by simpa using hd⟩
    cases h : t.isDirectory (d ++ [source.name]) with
    | false => rfl
    | true => rw [has_of_isDirectory h] at hb; cases hb

/-- Where a file cannot be renamed to, it cannot be written. -/
theorem fileSpot_error {target : Path}
    (htarget : ∀ d' n', t.spot target = .ok (.named d' n') → t.isDirectory (d' ++ [n']) = true) :
    ∃ f, t.fileSpot target = .error f := by
  unfold fileSpot
  cases hspot : t.spot target with
  | error f => exact ⟨f, rfl⟩
  | ok s =>
    cases s with
    | fixed d' => exact ⟨_, rfl⟩
    | named d' n' => exact ⟨.isDirectory, by simp only [htarget d' n' hspot, if_true]⟩

theorem locate_of_spot {p : Path} {d : Location} {n : String}
    (hs : t.spot p = .ok (.named d n)) (hhas : t.has (d ++ [n]) = true) :
    t.locate p = .ok (d ++ [n]) := by
  simp [locate, hs, settle, hhas]

/-- A file is transferred to the location that the target names, or nothing happens. -/
theorem transfer_file_cases (ht : t.WellFormed) {source : Path} {d : Location} {n : String}
    (hsource : t.spot source = .ok (.named d n)) (hfile : t.get? (d ++ [n]) = some (.file c))
    (goal target : Path) (shown : String) :
    (∃ d' n' t', t.spot target = .ok (.named d' n') ∧ t.isDirectory (d' ++ [n']) = false ∧
        t.transfer source goal target shown = (.ok (), t') ∧
        Moved t t' (d ++ [n]) (d' ++ [n']) c) ∨
      ∃ e, t.transfer source goal target shown = (.error e, t) := by
  unfold transfer
  by_cases htarget :
    ∀ d' n', t.spot target = .ok (.named d' n') → t.isDirectory (d' ++ [n']) = true
  · right
    obtain ⟨f, hf⟩ := rename_file_error hsource hfile htarget
    obtain ⟨g, hg⟩ := fileSpot_error htarget
    have hloc := locate_of_spot hsource (has_iff.2 ⟨_, hfile⟩)
    simp only [hf, hloc, Except.map, not_isDirectory_of_file hfile, carryFile, hg]
    cases t.read source <;> exact ⟨_, rfl⟩
  · left
    simp only [not_forall, Bool.not_eq_true] at htarget
    obtain ⟨d', n', hspot, hb⟩ := htarget
    obtain ⟨t', hrun, hmoved⟩ := rename_file ht hsource hfile hspot hb
    exact ⟨d', n', t', hspot, hb, by rw [hrun], hmoved⟩

/-- What is not there is not transferred. -/
theorem transfer_missing {source : Path} {d : Location} {n : String}
    (hsource : t.spot source = .ok (.named d n)) (hnone : t.get? (d ++ [n]) = none)
    (goal target : Path) (shown : String) :
    ∃ e, t.transfer source goal target shown = (.error e, t) := by
  have hlocate : t.locate source = .error .noEntry := by
    simp [locate, hsource, settle, has, hnone]
  have hread : ∃ e, t.read source = .error e := by
    unfold FileTree.read ask
    rw [hlocate]
    split <;> exact ⟨_, rfl⟩
  have hrename : ∃ f, t.rename source target = .error f := by
    unfold rename
    rw [hsource]
    rcases t.spot target with f | ⟨d'⟩ | ⟨d', n'⟩
    · exact ⟨f, rfl⟩
    · exact ⟨.busy, rfl⟩
    · exact ⟨.noEntry, by simp only [hnone]⟩
  obtain ⟨e, hread⟩ := hread
  obtain ⟨f, hrename⟩ := hrename
  exact ⟨e, by simp only [transfer, hrename, hlocate, Except.map, carryFile, hread]⟩

/-- The path of an entry of a directory. -/
def entryPath (p : Path) (name : String) : Path := { p with parts := p.parts ++ [name] }

/-- The spot of an entry of a directory that a path leads to. -/
theorem spot_entryPath {p : Path} {name n : String} {l d : Location} (hloc : t.locate p = .ok l)
    (hs : t.spot (entryPath p name) = .ok (.named d n)) : d = l ∧ n = name := by
  rw [spot_eq_of_concat (p := entryPath p name) rfl] at hs
  rw [locate_eq] at hloc
  split at hs
  · cases hs
  · split at hloc
    · cases hloc
    · have horigin : t.origin (entryPath p name) = t.origin p := rfl
      rw [horigin, hloc] at hs
      rcases (spotIn_eq_ok.1 hs).2 with ⟨-, h⟩ | ⟨-, -, h⟩ <;> cases h
      exact ⟨rfl, rfl⟩

/-- A source is moved into a directory that the target leads to. -/
theorem move_of_isDirectory {source target : Path} {l : Location} (hloc : t.locate target = .ok l)
    (hdir : t.isDirectory l = true) (hne : (t.locate source).toOption ≠ some l) :
    t.move source target =
      if source.hasNul ∨ target.hasNul then (.error .embeddedNul, t)
      else if source.parts = [] ∨ (t.locate (entryPath target source.name)).isOk then
        (.error (.destinationExists (textBelow target (ownName source))), t)
      else
        t.transfer source target (entryPath target source.name)
          (textBelow target (ownName source)) := by
  simp only [move, hloc, Except.map, hdir, hne, if_false]
  rfl

/-- A source is moved to the target itself if that leads to no directory. -/
theorem move_of_not_isDirectory {source target : Path}
    (h : ∀ l, t.locate target = .ok l → t.isDirectory l = false) :
    t.move source target =
      if source.hasNul ∨ target.hasNul then (.error .embeddedNul, t)
      else t.transfer source target target target.text := by
  unfold move
  cases hloc : t.locate target with
  | error f => rfl
  | ok l => simp only [Except.map, h l hloc]

/-- What is not there is not moved. -/
theorem move_missing {source : Path} {d : Location} {n : String}
    (hsource : t.spot source = .ok (.named d n)) (hnone : t.get? (d ++ [n]) = none)
    (target : Path) : ∃ e, t.move source target = (.error e, t) := by
  by_cases hinto : ∃ l, t.locate target = .ok l ∧ t.isDirectory l = true
  · obtain ⟨l, hloc, hdir⟩ := hinto
    have hne : (t.locate source).toOption ≠ some l := by
      simp [locate, hsource, settle, has, hnone, Except.toOption]
    rw [move_of_isDirectory hloc hdir hne]
    split
    · exact ⟨_, rfl⟩
    · split
      · exact ⟨_, rfl⟩
      · exact transfer_missing hsource hnone ..
  · have hnot : ∀ l, t.locate target = .ok l → t.isDirectory l = false := fun l hl => by
      rw [← Bool.not_eq_true]
      exact fun hdir => hinto ⟨l, hl, hdir⟩
    rw [move_of_not_isDirectory hnot]
    split
    · exact ⟨_, rfl⟩
    · exact transfer_missing hsource hnone ..

/-- Nothing is moved to a path that the file system cannot be asked about. -/
theorem hasNul_of_move {source target : Path} (h : (t.move source target).1 = .ok ()) :
    target.hasNul = false := by
  rw [← Bool.not_eq_true]
  intro hnul
  rw [move, if_pos (.inr hnul)] at h
  cases h

/-- **A move of a file is all or nothing.** -/
theorem move_file_cases (ht : t.WellFormed) {source : Path} {d : Location} {n : String}
    (hsource : t.spot source = .ok (.named d n)) (hfile : t.get? (d ++ [n]) = some (.file c))
    (target : Path) :
    (∃ b t', t.move source target = (.ok (), t') ∧ t.LandsAt source target b ∧
        Moved t t' (d ++ [n]) b c) ∨
      ∃ e, t.move source target = (.error e, t) := by
  by_cases hinto : ∃ l, t.locate target = .ok l ∧ t.isDirectory l = true
  · obtain ⟨l, hloc, hdir⟩ := hinto
    have hne : (t.locate source).toOption ≠ some l := by
      rw [locate_of_spot hsource (has_iff.2 ⟨_, hfile⟩)]
      rintro ⟨⟩
      rw [not_isDirectory_of_file hfile] at hdir
      cases hdir
    rw [move_of_isDirectory hloc hdir hne]
    split
    · exact .inr ⟨_, rfl⟩
    split
    · exact .inr ⟨_, rfl⟩
    next hfree =>
    rcases transfer_file_cases ht hsource hfile target (entryPath target source.name)
      (textBelow target (ownName source)) with
      ⟨d', n', t', hspot, -, hrun, hmoved⟩ | herr
    · obtain ⟨rfl, rfl⟩ := spot_entryPath hloc hspot
      have hnone : t.has (d' ++ [source.name]) = false := by
        rw [← Bool.not_eq_true]
        intro hhas
        exact hfree (.inr (by rw [locate_of_spot hspot hhas]; rfl))
      exact .inl ⟨_, t', hrun, .inr ⟨hnone, d', hloc, hdir, rfl⟩, hmoved⟩
    · exact .inr herr
  · have hnot : ∀ l, t.locate target = .ok l → t.isDirectory l = false := fun l hl => by
      rw [← Bool.not_eq_true]
      exact fun hdir => hinto ⟨l, hl, hdir⟩
    rw [move_of_not_isDirectory hnot]
    split
    · exact .inr ⟨_, rfl⟩
    rcases transfer_file_cases ht hsource hfile target target target.text with
      ⟨d', n', t', hspot, hb, hrun, hmoved⟩ | herr
    · exact .inl ⟨_, t', hrun, .inl ⟨hb, d', n', hspot, rfl⟩, hmoved⟩
    · exact .inr herr

end Folio.FileTree
