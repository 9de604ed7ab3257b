import Folio.Proofs.FileTree.Refusals
import Folio.Proofs.Output.Buffers

/-!
# Discarding in any tree

By the time they are discarded, buffers may be gone, or directories in their place, or files that
were put there since. `Swept` is what is left of any tree: no buffer leads to a file, and nothing is
missing but files that buffers led to. Discarding always comes to its end (`run_discard_swept`);
what cannot be removed is noted and stays.
-/

namespace Folio

open FileTree

namespace FileTree

variable {t t' t₁ : FileTree} {p : Path} {outputs : List (String × Path)}

/-- What can be removed is a file that the path names. -/
theorem unlink_eq_ok :
    t.unlink p = .ok t' ↔
      ∃ l c, t.Names p l ∧ t.get? l = some (.file c) ∧ t' = t.erase l := by
  constructor
  · intro h
    unfold unlink ask at h
    split at h
    · cases h
    next hnul =>
    have hnul : p.hasNul = false := by simpa using hnul
    cases hspot : t.spot p with
    | error f => simp [hspot, Except.mapError] at h
    | ok spot =>
      cases spot with
      | fixed d => simp [hspot, Except.mapError] at h
      | named d n =>
        rw [hspot] at h
        dsimp only at h
        split at h
        · cases h
        · cases h
        · next c hfile =>
          cases h
          exact ⟨d ++ [n], c, ⟨hnul, d, n, hspot, rfl⟩, hfile, rfl⟩
  · rintro ⟨l, c, hnames, hfile, rfl⟩
    exact hnames.unlink hfile

/-- The second tree is the first without the files that a list of buffers leads to. -/
structure Swept (outputs : List (String × Path)) (t t' : FileTree) : Prop where
  cwd : t'.cwd = t.cwd
  /-- Nothing is missing but files that were named by a buffer. -/
  get?_eq_or : ∀ l, t'.get? l = t.get? l ∨
    t'.get? l = none ∧ (∃ output ∈ outputs, t.Names output.2 l) ∧ ∃ c, t.get? l = some (.file c)
  /-- No file is left that a buffer names. -/
  get?_ne_file : ∀ output ∈ outputs, ∀ l c, t'.Names output.2 l → t'.get? l ≠ some (.file c)

namespace Swept

theorem isDirectory_eq (h : Swept outputs t t') (l : Location) :
    t'.isDirectory l = t.isDirectory l := by
  unfold isDirectory
  rcases h.get?_eq_or l with hsame | ⟨hnone, -, c, hfile⟩
  · rw [hsame]
  · rw [hnone, hfile]

theorem directoriesKept (h : Swept outputs t t') : DirectoriesKept t t' :=
  ⟨h.cwd, fun l hl => by rwa [h.isDirectory_eq]⟩

theorem directoriesKept_back (h : Swept outputs t t') : DirectoriesKept t' t :=
  ⟨h.cwd.symm, fun l hl => by rwa [← h.isDirectory_eq]⟩

/-- What is found afterwards was there before. -/
theorem get?_of_some (h : Swept outputs t t') {l : Location} {e : Entry}
    (he : t'.get? l = some e) : t.get? l = some e := by
  rcases h.get?_eq_or l with hsame | ⟨hnone, -⟩
  · rw [← hsame, he]
  · rw [hnone] at he
    cases he

theorem wellFormed (h : Swept outputs t t') (ht : t.WellFormed) : t'.WellFormed where
  cwd := by
    rw [h.cwd, h.isDirectory_eq]
    exact ht.cwd
  parent l hl hhas := by
    obtain ⟨e, he⟩ := has_iff.1 hhas
    rw [h.isDirectory_eq]
    exact ht.parent l hl (has_iff.2 ⟨e, h.get?_of_some he⟩)

/-- In a well-formed tree no buffer is a file any more. -/
theorem not_isFileAt (h : Swept outputs t t') (ht : t.WellFormed) :
    ∀ output ∈ outputs, t'.isFileAt output.2 ≠ .ok true := by
  intro output houtput hfile
  obtain ⟨l, c, hnames, hc⟩ := Names.of_isFileAt (h.wellFormed ht) hfile
  exact h.get?_ne_file output houtput l c hnames hc

/-! Sweeping goes buffer by buffer. -/

theorem nil (t : FileTree) : Swept [] t t :=
  ⟨rfl, fun _ => .inl rfl, fun _ h => nomatch h⟩

/-- A buffer that leads to a file is removed. -/
theorem of_unlink {output : String × Path} (h : t.unlink output.2 = .ok t') :
    Swept [output] t t' := by
  obtain ⟨l, c, hnames, hfile, rfl⟩ := unlink_eq_ok.1 h
  have hget := get?_erase t hnames.ne_nil
  have hback : DirectoriesKept (t.erase l) t := ⟨rfl, fun k hk => by
    rwa [isDirectory_eq_of_get? (not_isDirectory_of_file hfile) hget] at hk⟩
  refine ⟨rfl, fun k => ?_, List.forall_mem_singleton.2 fun k c' hk => ?_⟩
  · by_cases hkl : k = l
    · subst hkl
      exact .inr ⟨by rw [hget, if_pos rfl], ⟨output, List.mem_singleton_self _, hnames⟩, c, hfile⟩
    · exact .inl (by rw [hget, if_neg hkl])
  · rw [hget, if_pos (hnames.unique (hk.mono hback))]
    exact nofun

/-- A buffer that cannot be removed leads to no file. -/
theorem of_unlink_error {output : String × Path} {e : FileError}
    (h : t.unlink output.2 = .error e) : Swept [output] t t := by
  refine ⟨rfl, fun _ => .inl rfl, List.forall_mem_singleton.2 fun l c hnames hfile => ?_⟩
  rw [hnames.unlink hfile] at h
  cases h

theorem cons {output : String × Path} (h : Swept [output] t t₁) (h' : Swept outputs t₁ t') :
    Swept (output :: outputs) t t' where
  cwd := h'.cwd.trans h.cwd
  get?_eq_or l := by
    rcases h'.get?_eq_or l with hsame | ⟨hnone, ⟨output', houtput, hnames⟩, c, hfile⟩
    · rw [hsame]
      refine (h.get?_eq_or l).imp_right fun ⟨hnone, ⟨output', houtput, hnames⟩, hfile⟩ => ?_
      rw [List.mem_singleton.1 houtput] at hnames
      exact ⟨hnone, ⟨output, List.mem_cons_self, hnames⟩, hfile⟩
    · exact .inr ⟨hnone, ⟨output', List.mem_cons_of_mem _ houtput,
        hnames.mono h.directoriesKept_back⟩, c, h.get?_of_some hfile⟩
  get?_ne_file := by
    refine List.forall_mem_cons.2 ⟨fun l c hnames hfile => ?_, h'.get?_ne_file⟩
    exact h.get?_ne_file output (List.mem_singleton_self _) l c
      (hnames.mono h'.directoriesKept_back) (h'.get?_of_some hfile)

end Swept

end FileTree

namespace Store

/-- Paths that name locations can be handed to the file system. -/
theorem hasNul_of_names {t : FileTree} {outputs : List (String × Path)} {as : List Location}
    (h : List.Forall₂ (fun output a => t.Names output.2 a) outputs as) :
    ∀ output ∈ outputs, output.2.hasNul = false := by
  induction h with
  | nil => exact fun _ h => nomatch h
  | cons hfirst _ ih => exact List.forall_mem_cons.2 ⟨hfirst.hasNul, ih⟩

/-- The first of a list of outputs is discarded, or it is noted that it cannot be. -/
theorem run_discardAll_cons_swept {output : String × Path} (hnul : output.2.hasNul = false)
    (outputs : List (String × Path)) (s : Store) :
    ∃ tree log, (discardAll (output :: outputs)).run s =
        (discardAll outputs).run { s with tree, log } ∧ Swept [output] s.tree tree := by
  rw [discardAll, Step.run_bind_ok (Step.run_get s)]
  cases hunlink : s.tree.unlink output.2 with
  | ok tree => exact ⟨tree, s.log, rfl, .of_unlink hunlink⟩
  | error e =>
    cases e with
    | embeddedNul => exact absurd hunlink (unlink_ne_embeddedNul hnul)
    | system fault path =>
      cases fault with
      | noEntry => exact ⟨s.tree, s.log, rfl, .of_unlink_error hunlink⟩
      | _ => exact ⟨s.tree, _, rfl, .of_unlink_error hunlink⟩
    | systemPair | destinationExists | intoItself | tooDeep =>
      exact ⟨s.tree, _, rfl, .of_unlink_error hunlink⟩

theorem run_discardAll_swept {outputs : List (String × Path)}
    (hbuffers : ∀ output ∈ outputs, output.2.hasNul = false) :
    ∀ s, ∃ tree log, (discardAll outputs).run s = (.ok (), { s with tree, log }) ∧
      Swept outputs s.tree tree := by
  induction outputs with
  | nil => exact fun s => ⟨s.tree, s.log, rfl, .nil _⟩
  | cons output outputs ih =>
    intro s
    rw [List.forall_mem_cons] at hbuffers
    obtain ⟨tree, log, hturn, hfirst⟩ := run_discardAll_cons_swept hbuffers.1 outputs s
    obtain ⟨tree', log', hrun, hrest⟩ := ih hbuffers.2 { s with tree, log }
    exact ⟨tree', log', hturn.trans hrun, hfirst.cons hrest⟩

/-- **Discarding comes to its end in any tree** and forgets all outputs. -/
theorem run_discard_swept {s : Store}
    (hbuffers : ∀ output ∈ s.registry.outputs, output.2.hasNul = false) :
    ∃ tree log, discard.run s =
        (.ok (), { s with tree, registry := s.registry.clear, log }) ∧
      Swept s.registry.outputs s.tree tree := by
  obtain ⟨tree, log, hrun, hswept⟩ := run_discardAll_swept hbuffers s
  refine ⟨tree, log, ?_, hswept⟩
  rw [discard, Step.run_bind_ok (Step.run_get s), Step.run_bind_ok hrun]
  rfl

/-- Discarding outputs whose buffers are partly gone, but no directories: none of them is left. -/
theorem run_discard_of_names {as : List Location} {s : Store}
    (hnames : List.Forall₂ (fun output a => s.tree.Names output.2 a) s.registry.outputs as)
    (hdirs : ∀ a ∈ as, s.tree.isDirectory a = false) :
    ∃ tree log, discard.run s = (.ok (), { s with tree, registry := s.registry.clear, log }) ∧
      tree.cwd = s.tree.cwd ∧ ∀ k, tree.get? k = if k ∈ as then none else s.tree.get? k := by
  obtain ⟨tree, log, hrun, hswept⟩ := run_discard_swept (hasNul_of_names hnames)
  refine ⟨tree, log, hrun, hswept.cwd, fun k => ?_⟩
  split
  · next hk =>
    obtain ⟨output, houtput, hnamed⟩ := (mem_of_names hnames).1 hk
    have hfile := hswept.get?_ne_file output houtput k
    have hdir := hdirs k hk
    rw [← hswept.isDirectory_eq] at hdir
    cases hget : tree.get? k with
    | none => rfl
    | some e =>
      cases e with
      | directory => rw [isDirectory_iff.2 hget] at hdir; cases hdir
      | file c => exact absurd hget (hfile c (hnamed.mono hswept.directoriesKept))
  · next hk =>
    rcases hswept.get?_eq_or k with hsame | ⟨-, hnamed, -⟩
    · exact hsame
    · exact absurd ((mem_of_names hnames).2 hnamed) hk

end Store

end Folio
