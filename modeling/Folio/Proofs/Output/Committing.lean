import Folio.Proofs.FileTree.Carrying
import Folio.Proofs.FileTree.Making
import Folio.Proofs.Output.Buffers

/-!
# Committing buffers

A commit makes its directory, looks at the targets and moves one buffer after the other.
`Store.landings` is what it puts where, computed without moving anything. However a commit ends, the
tree is the one with the directory, and these files carried over (`run_commit`).
-/

namespace Folio

open FileTree

/-- What is put where when a list of outputs is moved into a directory, up to the first that cannot
be moved. -/
def FileTree.landings (directory : Path) : FileTree → List (String × Path) →
    List (Location × Content)
  | _, [] => []
  | t, (name, buffer) :: rest =>
    match t.move buffer (Registry.target directory name), t.read buffer with
    | (.ok (), next), .ok content =>
      (t.landing buffer (Registry.target directory name), content) ::
        landings directory next rest
    | _, _ => []

section
variable {t t₁ : FileTree} {directory buffer : Path} {name : String}

/-- A buffer that is moved lands, and the others follow. -/
theorem FileTree.landings_cons {b : Location} {c : Content} (hread : t.read buffer = .ok c)
    (hmove : t.move buffer (Registry.target directory name) = (.ok (), t₁))
    (hlands : t.LandsAt buffer (Registry.target directory name) b) (rest : List (String × Path)) :
    t.landings directory ((name, buffer) :: rest) = (b, c) :: t₁.landings directory rest := by
  rw [landings, hmove, hread, hlands.eq_landing]

/-- Nothing lands behind a buffer that cannot be moved. -/
theorem FileTree.landings_cons_error {e : FileError}
    (hmove : t.move buffer (Registry.target directory name) = (.error e, t₁))
    (rest : List (String × Path)) : t.landings directory ((name, buffer) :: rest) = [] := by
  rw [landings, hmove]

end

namespace Store

/-- The buffers of a list of outputs are files, at the given locations. -/
def FilledAt (t : FileTree) (outputs : List (String × Path)) (as : List Location) : Prop :=
  List.Forall₂ (fun output a => t.Names output.2 a ∧ ∃ c, t.get? a = some (.file c)) outputs as

theorem FilledAt.exists_file {t : FileTree} {outputs : List (String × Path)} {as : List Location}
    (h : FilledAt t outputs as) : ∀ a ∈ as, ∃ c, t.get? a = some (.file c) := by
  induction h with
  | nil => exact fun _ ha => nomatch ha
  | cons hfirst _ ih => exact List.forall_mem_cons.2 ⟨hfirst.2, ih⟩

/-- Buffers stay files where no directory is lost and no file either. -/
theorem FilledAt.mono {t t' : FileTree} {outputs : List (String × Path)} {as : List Location}
    (h : FilledAt t outputs as) (hkept : DirectoriesKept t t')
    (hfiles : ∀ a ∈ as, ∀ c, t.get? a = some (.file c) → ∃ c', t'.get? a = some (.file c')) :
    FilledAt t' outputs as := by
  induction h with
  | nil => exact .nil
  | cons hfirst _ ih =>
    obtain ⟨hnames, c, hc⟩ := hfirst
    exact .cons ⟨hnames.mono hkept, hfiles _ List.mem_cons_self c hc⟩
      (ih fun a ha => hfiles a (List.mem_cons_of_mem _ ha))

/-- Buffers stay files when another one is moved away. A buffer that it replaces is a file again. -/
theorem FilledAt.moved {t t' : FileTree} {outputs : List (String × Path)} {as : List Location}
    {a b : Location} {c : Content} (h : FilledAt t outputs as) (hmoved : Moved t t' a b c)
    (hfile : t.get? a = some (.file c)) (hb : t.isDirectory b = false) (ha : a ∉ as) :
    FilledAt t' outputs as := by
  refine h.mono (hmoved.directoriesKept (not_isDirectory_of_file hfile) hb) fun k hk c' hc' => ?_
  rw [hmoved.get?_eq]
  by_cases hkb : k = b
  · exact ⟨c, if_pos hkb⟩
  · have hka : k ≠ a := fun heq => ha (heq ▸ hk)
    exact ⟨c', by rw [if_neg hkb, if_neg hka, hc']⟩

/-! ## Moves -/

section
variable {directory buffer : Path} {name : String} {s : Store} {t₁ : FileTree}

/-- The failure of a commit whose move is refused. -/
def moveFailure (target : Path) : FileError → Failure
  | .embeddedNul => .file .embeddedNul
  | e => .outputUnwritten target.text e

/-- A buffer that is moved is noted, and the others follow. -/
theorem run_moveAll_cons
    (hmove : s.tree.move buffer (Registry.target directory name) = (.ok (), t₁))
    (outputs : List (String × Path)) :
    ∃ log, (moveAll directory ((name, buffer) :: outputs)).run s =
      (moveAll directory outputs).run { s with tree := t₁, log } := by
  rw [moveAll, Step.run_bind_ok (run_halfway _ s), hmove]
  exact ⟨_, rfl⟩

/-- A buffer that cannot be moved is the last one that is tried. -/
theorem run_moveAll_cons_error {e : FileError}
    (hmove : s.tree.move buffer (Registry.target directory name) = (.error e, t₁))
    (outputs : List (String × Path)) :
    (moveAll directory ((name, buffer) :: outputs)).run s =
      (.error (moveFailure (Registry.target directory name) e), { s with tree := t₁ }) := by
  rw [moveAll, Step.run_bind_ok (run_halfway _ s), hmove]
  cases e <;> rfl

/-- Moves fail with the first one that is refused. -/
theorem exists_refused_of_run_moveAll {f : Failure} {outputs : List (String × Path)} :
    ∀ {s s' : Store}, (moveAll directory outputs).run s = (.error f, s') →
      ∃ output ∈ outputs, ∃ (t : FileTree) (e : FileError),
        (t.move output.2 (Registry.target directory output.1)).1 = .error e ∧
          f = moveFailure (Registry.target directory output.1) e := by
  induction outputs with
  | nil => exact fun h => nomatch h
  | cons output outputs ih =>
    intro s s' h
    obtain ⟨name, buffer⟩ := output
    rcases hmove : s.tree.move buffer (Registry.target directory name) with ⟨e | ⟨⟨⟩⟩, t₁⟩
    · rw [run_moveAll_cons_error hmove] at h
      cases h
      exact ⟨_, List.mem_cons_self, s.tree, e, by rw [hmove], rfl⟩
    · obtain ⟨log, hturn⟩ := run_moveAll_cons hmove outputs
      rw [hturn] at h
      obtain ⟨output, houtput, hrefused⟩ := ih h
      exact ⟨output, List.mem_cons_of_mem _ houtput, hrefused⟩

/-- Moves leave what is registered alone, however they end. -/
theorem registry_moveAll (directory : Path) : ∀ (outputs : List (String × Path)) (s : Store),
    ((moveAll directory outputs).run s).2.registry = s.registry
  | [], _ => rfl
  | (name, buffer) :: outputs, s => by
    rcases hmove : s.tree.move buffer (Registry.target directory name) with ⟨e | ⟨⟨⟩⟩, t₁⟩
    · rw [run_moveAll_cons_error hmove]
    · obtain ⟨log, hturn⟩ := run_moveAll_cons hmove outputs
      rw [hturn, registry_moveAll directory outputs]

end

/-- **The moves of a commit**, up to the first that is refused. The induction is on the outputs;
that their buffers are files is what a move keeps for those behind it. -/
theorem run_moveAll (directory : Path) {outputs : List (String × Path)} {as : List Location} :
    ∀ {s : Store}, s.tree.WellFormed → FilledAt s.tree outputs as → as.Nodup →
      ∃ s', Carried s.tree (as.take (s.tree.landings directory outputs).length)
          (s.tree.landings directory outputs) s'.tree ∧ s'.registry = s.registry ∧
        ((moveAll directory outputs).run s = (.ok (), s') ∧
            (s.tree.landings directory outputs).length = as.length ∨
          ∃ f, (moveAll directory outputs).run s = (.error f, s')) := by
  induction outputs generalizing as with
  | nil =>
    intro s _ hfilled _
    cases hfilled
    exact ⟨s, .nil _, rfl, .inl ⟨rfl, rfl⟩⟩
  | cons output outputs ih =>
    intro s ht hfilled hnodup
    obtain ⟨name, buffer⟩ := output
    cases hfilled with
    | @cons _ a _ as hfirst hfilled =>
    obtain ⟨hnames, c, hc⟩ := hfirst
    rw [List.nodup_cons] at hnodup
    obtain ⟨ha, hnodup⟩ := hnodup
    obtain ⟨d, n, hspot, rfl⟩ := hnames.spot
    have hread := hnames.read hc
    rcases move_file_cases ht hspot hc (Registry.target directory name) with
      ⟨b, t₁, hmove, hlands, hmoved⟩ | ⟨e, hmove⟩
    · obtain ⟨hb, hup⟩ := hlands.isDirectory
      obtain ⟨log, hturn⟩ := run_moveAll_cons hmove outputs
      obtain ⟨s₂, hcarried, hregistry, hrun⟩ := ih (s := { s with tree := t₁, log })
        (hmoved.wellFormed ht (not_isDirectory_of_file hc) hb hup)
        (FilledAt.moved hfilled hmoved hc hb ha) hnodup
      rw [landings_cons hread hmove hlands, hturn]
      refine ⟨s₂, .cons hc hb hup hmoved hcarried, hregistry, ?_⟩
      rcases hrun with ⟨hrun, hlength⟩ | hrun
      · exact .inl ⟨hrun, by rw [List.length_cons, hlength, List.length_cons]⟩
      · exact .inr hrun
    · rw [landings_cons_error hmove]
      exact ⟨s, .nil _, rfl, .inr ⟨_, run_moveAll_cons_error hmove outputs⟩⟩

/-! ## Commits -/

/-- No target leads to anything. -/
theorem existingTargets_eq_nil {t : FileTree} {directory : Path} :
    ∀ (names : List String), existingTargets t directory names = .ok [] ↔
      ∀ name ∈ names, t.pathExists (Registry.target directory name) = .ok false
  | [] => by simp [existingTargets]
  | name :: names => by
    rw [List.forall_mem_cons, ← existingTargets_eq_nil names, existingTargets]
    cases t.pathExists (Registry.target directory name) with
    | error e => simp
    | ok found =>
      cases found <;> cases existingTargets t directory names <;> simp [Except.map]

/-- Looking at the targets changes nothing. -/
theorem run_refuseExisting (directory : Path) (s : Store) :
    (existingTargets s.tree directory s.registry.names = .ok [] ∧
        (refuseExisting directory).run s = (.ok (), s)) ∨
      (existingTargets s.tree directory s.registry.names ≠ .ok [] ∧
        ∃ f, (refuseExisting directory).run s = (.error f, s)) := by
  rw [refuseExisting, Step.run_bind_ok (Step.run_get s)]
  cases existingTargets s.tree directory s.registry.names with
  | error e => exact .inr ⟨by simp, _, rfl⟩
  | ok targets =>
    cases targets with
    | nil => exact .inl ⟨rfl, rfl⟩
    | cons target targets => exact .inr ⟨by simp, _, rfl⟩

/-- What a commit puts where before it ends: every buffer that is moved, unless there is no
directory or a target stands in the way. -/
def landings (directory : Path) (s : Store) : List (Location × Content) :=
  match s.tree.makeDirectories directory with
  | (.error _, _) => []
  | (.ok (), t) =>
    match s.registry.overwrite, existingTargets t directory s.registry.names with
    | true, _ => t.landings directory s.registry.outputs
    | false, .ok [] => t.landings directory s.registry.outputs
    | false, _ => []

/-- A commit that may go on to move buffers: its directory is there, and no target is in the way. -/
structure Cleared (directory : Path) (s : Store) : Prop where
  made : (s.tree.makeDirectories directory).1 = .ok ()
  targets : s.registry.overwrite = false →
    existingTargets (s.tree.makeDirectories directory).2 directory s.registry.names = .ok []

theorem Cleared.landings_eq {directory : Path} {s : Store} (h : Cleared directory s) :
    landings directory s =
      (s.tree.makeDirectories directory).2.landings directory s.registry.outputs := by
  obtain ⟨hmade, htargets⟩ := h
  unfold landings
  rcases hmake : s.tree.makeDirectories directory with ⟨_ | ⟨⟨⟩⟩, t⟩
  · rw [hmake] at hmade
    cases hmade
  · rw [hmake] at htargets
    cases hoverwrite : s.registry.overwrite with
    | true => rfl
    | false => simp only [htargets hoverwrite]

/-- The moves of a commit are its last part. -/
theorem run_commit_of_cleared {directory : Path} {s : Store} (h : Cleared directory s) :
    (commit directory).run s =
      (do
        moveAll directory s.registry.outputs
        modify fun s => { s with registry := s.registry.clear } : Action Unit).run
        { s with tree := (s.tree.makeDirectories directory).2 } := by
  obtain ⟨hmade, htargets⟩ := h
  rw [commit, Step.run_bind_ok (run_halfway _ s), hmade]
  dsimp only
  rw [Step.run_bind_ok (Step.run_get _)]
  split
  · next hoverwrite =>
    rcases run_refuseExisting directory { s with tree := (s.tree.makeDirectories directory).2 } with
      ⟨-, hrun⟩ | ⟨hne, -⟩
    · rw [Step.run_bind_ok hrun, Step.run_bind_ok (Step.run_get _)]
    · exact absurd (htargets hoverwrite) hne
  · rw [Step.run_bind_ok (Step.run_get _)]

/-- A commit that may not go on stops with its directory made, as far as that goes. -/
theorem run_commit_of_not_cleared {directory : Path} {s : Store} (h : ¬ Cleared directory s) :
    landings directory s = [] ∧ ∃ f, (commit directory).run s =
      (.error f, { s with tree := (s.tree.makeDirectories directory).2 }) := by
  rw [commit, Step.run_bind_ok (run_halfway _ s)]
  unfold landings
  cases hmake : s.tree.makeDirectories directory with
  | mk outcome t =>
    cases outcome with
    | error e => exact ⟨rfl, _, rfl⟩
    | ok u =>
      have hstop : s.registry.overwrite = false ∧
          existingTargets t directory s.registry.names ≠ .ok [] := by
        constructor
        · by_contra hgo
          exact h ⟨by rw [hmake], fun hoverwrite => absurd hoverwrite hgo⟩
        · intro hnil
          exact h ⟨by rw [hmake], fun _ => by rw [hmake]; exact hnil⟩
      obtain ⟨hoverwrite, hne⟩ := hstop
      dsimp only
      rw [hoverwrite]
      constructor
      · cases htargets : existingTargets t directory s.registry.names with
        | error e => rfl
        | ok targets =>
          cases targets with
          | nil => exact absurd htargets hne
          | cons target targets => rfl
      · rw [Step.run_bind_ok (Step.run_get _), if_pos hoverwrite]
        rcases run_refuseExisting directory { s with tree := t } with ⟨hok, -⟩ | ⟨-, f, hrun⟩
        · exact absurd hok hne
        · exact ⟨f, Step.run_bind_error hrun⟩

/-- A commit that succeeds forgets all outputs, and one that fails forgets none. -/
theorem registry_commit (directory : Path) (s : Store) :
    ((commit directory).run s).2.registry =
      if ((commit directory).run s).1.isOk then s.registry.clear else s.registry := by
  by_cases hcleared : Cleared directory s
  · have hregistry := registry_moveAll directory s.registry.outputs
      { s with tree := (s.tree.makeDirectories directory).2 }
    rw [run_commit_of_cleared hcleared, Step.run_bind]
    rcases hmoves : (moveAll directory s.registry.outputs).run
      { s with tree := (s.tree.makeDirectories directory).2 } with ⟨f | ⟨⟨⟩⟩, s'⟩
    all_goals
      rw [hmoves] at hregistry
    · exact hregistry
    · exact congrArg Registry.clear hregistry
  · obtain ⟨-, f, hrun⟩ := run_commit_of_not_cleared hcleared
    rw [hrun]
    rfl

/-- **A commit** leaves its directory made and its landings carried over, whether it gets to its end
or is stopped on the way. -/
theorem run_commit (directory : Path) {s : Store} {as : List Location} (ht : s.tree.WellFormed)
    (hfilled : FilledAt s.tree s.registry.outputs as) (hnodup : as.Nodup) :
    ∃ s', Carried (s.tree.makeDirectories directory).2
        (as.take (landings directory s).length) (landings directory s) s'.tree ∧
      ((commit directory).run s = (.ok (), s') ∧ Cleared directory s ∧
          (landings directory s).length = as.length ∧ s'.registry = s.registry.clear ∨
        ∃ f, (commit directory).run s = (.error f, s') ∧ s'.registry = s.registry) := by
  by_cases hcleared : Cleared directory s
  · have hmakes := makes_makeDirectories ht directory
    have hfilled' := hfilled.mono hmakes.made.directoriesKept fun a _ c hc =>
      ⟨c, hmakes.made.get?_of_some hc⟩
    obtain ⟨s', hcarried, hregistry, hrun⟩ := run_moveAll directory
      (s := { s with tree := (s.tree.makeDirectories directory).2 }) hmakes.wellFormed hfilled'
      hnodup
    rw [run_commit_of_cleared hcleared, hcleared.landings_eq]
    rcases hrun with ⟨hrun, hlength⟩ | ⟨f, hrun⟩
    · exact ⟨{ s' with registry := s'.registry.clear }, hcarried,
        .inl ⟨Step.run_bind_ok hrun, hcleared, hlength, congrArg Registry.clear hregistry⟩⟩
    · exact ⟨s', hcarried, .inr ⟨f, Step.run_bind_error hrun, hregistry⟩⟩
  · obtain ⟨hlandings, f, hrun⟩ := run_commit_of_not_cleared hcleared
    rw [hlandings]
    exact ⟨_, .nil _, .inr ⟨f, hrun, rfl⟩⟩

end Store

end Folio
