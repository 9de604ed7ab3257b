import Folio.FileTree.Move
import Folio.Proofs.FileTree.Following
import Folio.Proofs.Path

/-!
# Refused operations

An operation on files that is refused is refused by the file system, unless one of its paths cannot
be handed to it at all. So a move between paths without U+0000 never fails with the error about that
character (`move_ne_embeddedNul`), in whatever way the file is carried over.
-/

namespace Folio

namespace FileTree

variable {t t' : FileTree} {p source target : Path} {α : Type}

/-! ## Single operations -/

theorem ask_ne_embeddedNul (hp : p.hasNul = false) (x : Except Fault α) :
    ask p x ≠ .error .embeddedNul := by
  unfold ask
  rw [hp]
  cases x <;> exact nofun

theorem makeDirectory_ne_embeddedNul (hp : p.hasNul = false) :
    t.makeDirectory p ≠ .error .embeddedNul := ask_ne_embeddedNul hp _

theorem unlink_ne_embeddedNul (hp : p.hasNul = false) : t.unlink p ≠ .error .embeddedNul :=
  ask_ne_embeddedNul hp _

theorem read_ne_embeddedNul (hp : p.hasNul = false) : t.read p ≠ .error .embeddedNul :=
  ask_ne_embeddedNul hp _

/-- A directory that is made has a path that can be handed to the file system. -/
theorem hasNul_of_makeDirectories (h : (t.makeDirectories p).1 = .ok ()) : p.hasNul = false := by
  rw [← Bool.not_eq_true]
  intro hnul
  obtain ⟨anchor, parts⟩ := p
  obtain ⟨up, part, rfl⟩ : ∃ up part, parts = up ++ [part] := by
    rcases List.eq_nil_or_concat parts with rfl | ⟨up, part, hparts⟩
    · cases hnul
    · exact ⟨up, part, hparts.trans List.concat_eq_append⟩
  have hrefused : t.makeDirectory ⟨anchor, up ++ [part]⟩ = .error .embeddedNul := by
    rw [makeDirectory, ask, if_pos hnul]
  rw [makeDirectories, List.reverse_concat, show depthLimit = 979 + 1 from rfl, makeChain,
    List.reverse_cons, List.reverse_reverse, hrefused] at h
  cases h

/-! ## Looking at paths -/

/-- A way that cannot be followed lacks an entry or a directory, or a name on it is too long. -/
theorem fault_of_walk : ∀ {parts : List String} {dir : Location} {f : Fault},
    t.walk dir parts = .error f → f = .noEntry ∨ f = .notDirectory ∨ f = .nameTooLong
  | [], dir, f, h => nomatch h
  | part :: parts, dir, f, h => by
    unfold walk at h
    split at h
    · next g hg =>
      cases h
      unfold spotIn at hg
      split at hg
      · cases hg
        exact .inr (.inl rfl)
      · split at hg
        · cases hg
        · split at hg <;> cases hg
          exact .inr (.inr rfl)
    · split at h
      · next s _ g hg =>
        cases h
        unfold settle at hg
        split at hg
        · cases hg
        · split at hg <;> cases hg
          exact .inl rfl
      · exact fault_of_walk h

/-- Looking at a path is refused just if it is too long. -/
theorem probe_eq_error {e : FileError} : t.probe p = .error e ↔
    p.hasNul = false ∧ t.locate p = .error .nameTooLong ∧ e = .system .nameTooLong p.text := by
  unfold probe
  cases hnul : p.hasNul with
  | true => simp
  | false =>
    cases hl : t.locate p with
    | ok l => simp
    | error f =>
      have hfault : f = .noEntry ∨ f = .notDirectory ∨ f = .nameTooLong := by
        rw [locate_eq] at hl
        split at hl
        · cases hl
          exact .inr (.inr rfl)
        · exact fault_of_walk hl
      rcases hfault with rfl | rfl | rfl <;> simp [eq_comm]

/-- Whatever is asked about the entry that a path leads to. -/
theorem map_probe_eq_error {f : Option Entry → α} {e : FileError} :
    (t.probe p).map f = .error e ↔
      p.hasNul = false ∧ t.locate p = .error .nameTooLong ∧ e = .system .nameTooLong p.text := by
  rw [← probe_eq_error]
  cases t.probe p <;> simp [Except.map]

/-- Looking for an entry is refused just if the path is too long. -/
theorem pathExists_eq_error {e : FileError} : t.pathExists p = .error e ↔
    p.hasNul = false ∧ t.locate p = .error .nameTooLong ∧ e = .system .nameTooLong p.text :=
  map_probe_eq_error

/-! ## Moves -/

/-- Making a directory that must not exist yet, and the parents that are missing. -/
theorem makeFresh_ne_embeddedNul (anchor : Anchor) :
    ∀ {rev : List String} {t : FileTree}, (∀ part ∈ rev, Char.ofNat 0 ∉ part.toList) →
      (t.makeFresh anchor rev).1 ≠ .error .embeddedNul
  | [], t, _ => by simp [makeFresh]
  | part :: up, t, h => by
    have hparts : Path.hasNul ⟨anchor, (part :: up).reverse⟩ = false :=
      Path.hasNul_eq_false_iff.2 fun q hq => h q (List.mem_reverse.1 hq)
    have ih := makeFresh_ne_embeddedNul anchor (t := t) fun q hq => h q (List.mem_cons_of_mem _ hq)
    unfold makeFresh
    dsimp only
    split
    case h_3 e _ he =>
      split at he
      · cases he
      · exact he ▸ ih
    -- in the other two cases the parents are there, and the directory itself is made
    all_goals
      split
      · simp
      · next e he =>
        rintro ⟨⟩
        exact makeDirectory_ne_embeddedNul hparts he

/-- A directory that is carried over. -/
theorem carryDirectory_ne_embeddedNul (htarget : target.hasNul = false) :
    (t.carryDirectory source target).1 ≠ .error .embeddedNul := by
  have hfresh := makeFresh_ne_embeddedNul target.anchor (t := t)
    fun part (hpart : part ∈ target.parts.reverse) =>
      Path.hasNul_eq_false_iff.1 htarget part (List.mem_reverse.1 hpart)
  unfold carryDirectory
  rcases hmake : t.makeFresh target.anchor target.parts.reverse with ⟨e | ⟨⟨⟩⟩, next⟩
  · rwa [hmake] at hfresh
  · dsimp only
    split
    · split
      · simp
      · next e he =>
        unfold removeEmptied at he
        split at he <;> cases he <;> simp
    · simp

/-- A file that is carried over. -/
theorem carryFile_ne_embeddedNul (hsource : source.hasNul = false) (shown : String) :
    (t.carryFile source target shown).1 ≠ .error .embeddedNul := by
  unfold carryFile
  cases hread : t.read source with
  | error e =>
    rintro ⟨⟩
    exact read_ne_embeddedNul hsource hread
  | ok content =>
    dsimp only
    cases t.fileSpot target with
    | error f => simp
    | ok l =>
      dsimp only
      cases hunlink : (t.put l (.file content)).unlink source with
      | ok next => simp
      | error e =>
        rintro ⟨⟩
        exact unlink_ne_embeddedNul hsource hunlink

theorem transfer_ne_embeddedNul (hsource : source.hasNul = false) (htarget : target.hasNul = false)
    (goal : Path) (shown : String) :
    (t.transfer source goal target shown).1 ≠ .error .embeddedNul := by
  unfold transfer
  split
  · simp
  · split
    · split
      · simp
      · exact carryDirectory_ne_embeddedNul htarget
    · exact carryFile_ne_embeddedNul hsource shown

/-- **A move between paths that the file system can be asked about** is refused, if at all, by the
file system. -/
theorem move_ne_embeddedNul (hsource : source.hasNul = false) (htarget : target.hasNul = false) :
    (t.move source target).1 ≠ .error .embeddedNul := by
  have hinside : Path.hasNul { target with parts := target.parts ++ [source.name] } = false := by
    refine Path.hasNul_eq_false_iff.2 fun part hpart => ?_
    rcases List.mem_append.1 hpart with h | h
    · exact Path.hasNul_eq_false_iff.1 htarget part h
    · exact List.mem_singleton.1 h ▸ Path.nul_notMem_name hsource
  unfold move
  rw [if_neg (by simp [hsource, htarget])]
  split
  · split
    · split <;> simp
    · dsimp only
      split
      · simp
      · exact transfer_ne_embeddedNul hsource hinside _ _
  · exact transfer_ne_embeddedNul hsource htarget _ _

end FileTree

end Folio
