import Mathlib.Data.List.DropRight
import Folio.Proofs.Output.Committing
import Folio.Proofs.Output.Sweeping

/-!
# A store through its requests

Outputs are added, committed and discarded in any order, and all the while others change the file
tree. A request that fails is no reason not to make another one. What waits is read off the answers
alone (`pending`): the outputs that were added since the last commit that succeeded or the last
discard. `accounted_of_serve` says that the registry holds just these, whatever became of the files,
and that a later discard still clears all of them away.
-/

namespace Folio.Store

open FileTree

/-! ## Requests and answers -/

/-- What a store is asked for, or what happens to its file tree in between. -/
inductive Request where
  | add (buffer : Path) (name : String)
  | commit (directory : Path)
  | discard
  | setOverwrite (value : Bool)
  /-- Others leave this file tree, whatever there was before. -/
  | elsewhere (tree : FileTree)

/-- What a request does. -/
def Request.action : Request → Action Unit
  | add buffer name => Store.add buffer name
  | commit directory => Store.commit directory
  | discard => Store.discard
  | setOverwrite value =>
    modify fun s => { s with registry := { s.registry with overwrite := value } }
  | elsewhere tree => modify fun s => { s with tree }

/-- A request that was made, and how it ended. -/
structure Answer where
  request : Request
  outcome : Except Failure Unit

/-- Makes requests one after the other, whether or not they fail. -/
def serve : List Request → Store → List Answer × Store
  | [], s => ([], s)
  | r :: rs, s =>
    let (outcome, next) := r.action.run s
    let (answers, last) := serve rs next
    (⟨r, outcome⟩ :: answers, last)

/-- Does nothing wait behind it? That is so behind a commit that succeeded and a discard. -/
def Answer.settles : Answer → Bool
  | ⟨.commit _, .ok ()⟩ | ⟨.discard, _⟩ => true
  | _ => false

/-- The output that was added. -/
def Answer.added? : Answer → Option (String × Path)
  | ⟨.add buffer name, .ok ()⟩ => some (name, buffer)
  | _ => none

/-- The outputs that were added behind the last answer that settles. -/
def pending (answers : List Answer) : List (String × Path) :=
  (answers.rtakeWhile fun a => !a.settles).filterMap Answer.added?

theorem pending_concat (answers : List Answer) (a : Answer) :
    pending (answers ++ [a]) = if a.settles then [] else pending answers ++ a.added?.toList := by
  unfold pending
  rw [List.rtakeWhile_concat]
  cases a.settles with
  | true => rfl
  | false =>
    simp only [Bool.not_false, if_true, Bool.false_eq_true, if_false, List.filterMap_append]
    cases h : a.added? <;> simp [h]

/-! ## One request -/

/-- A registry with distinct names, whose buffers can be handed to the file system. -/
structure Usable (r : Registry) : Prop where
  nodup : r.names.Nodup
  hasNul : ∀ output ∈ r.outputs, output.2.hasNul = false

theorem Usable.clear (r : Registry) : Usable r.clear :=
  ⟨List.nodup_nil, fun _ h => nomatch h⟩

theorem Usable.add {r r' : Registry} {buffer : Path} {name : String} (h : Usable r)
    (hbuffer : buffer.hasNul = false) (hadd : r.add buffer name = .ok r') : Usable r' := by
  refine ⟨Registry.nodup_names_add h.nodup hadd, ?_⟩
  obtain ⟨-, rfl⟩ := Registry.add_eq_ok.1 hadd
  exact List.forall_mem_append.2 ⟨h.hasNul, List.forall_mem_singleton.2 hbuffer⟩

variable {s s' : Store}

/-- **One request** leaves a usable registry, in which what waited is followed by what was added,
unless the answer settles. -/
theorem Usable.action (h : Usable s.registry) {r : Request} {outcome : Except Failure Unit}
    (hbuffer : ∀ buffer name, r = .add buffer name → buffer.hasNul = false)
    (hrun : r.action.run s = (outcome, s')) :
    Usable s'.registry ∧ s'.registry.outputs =
      if (Answer.mk r outcome).settles then []
      else s.registry.outputs ++ (Answer.mk r outcome).added?.toList := by
  cases r with
  | add buffer name =>
    rw [Request.action, run_add] at hrun
    cases hadd : s.registry.add buffer name with
    | error f =>
      rw [hadd] at hrun
      cases hrun
      exact ⟨h, (List.append_nil _).symm⟩
    | ok r' =>
      rw [hadd] at hrun
      cases hrun
      refine ⟨h.add (hbuffer buffer name rfl) hadd, ?_⟩
      obtain ⟨-, rfl⟩ := Registry.add_eq_ok.1 hadd
      rfl
  | commit directory =>
    have hregistry := registry_commit directory s
    rw [show (commit directory).run s = (outcome, s') from hrun] at hregistry
    rw [hregistry]
    rcases outcome with f | ⟨⟨⟩⟩
    · exact ⟨h, (List.append_nil _).symm⟩
    · exact ⟨.clear _, rfl⟩
  | discard =>
    obtain ⟨tree, log, hdiscard, -⟩ := run_discard_swept h.hasNul
    cases hdiscard.symm.trans hrun
    exact ⟨.clear _, rfl⟩
  | setOverwrite value =>
    cases hrun
    exact ⟨⟨h.nodup, h.hasNul⟩, (List.append_nil _).symm⟩
  | elsewhere tree =>
    cases hrun
    exact ⟨h, (List.append_nil _).symm⟩

/-! ## Any number of requests -/

/-- Requests made to a store whose outputs are those that wait behind earlier answers. -/
theorem Usable.serve :
    ∀ {requests : List Request} {s s' : Store} {before answers : List Answer}, Usable s.registry →
      s.registry.outputs = pending before →
      (∀ buffer name, .add buffer name ∈ requests → buffer.hasNul = false) →
      Store.serve requests s = (answers, s') →
      Usable s'.registry ∧ s'.registry.outputs = pending (before ++ answers)
  | [], s, _, before, _, h, hpending, _, hserve => by
    cases hserve
    rw [List.append_nil]
    exact ⟨h, hpending⟩
  | r :: rs, s, _, before, _, h, hpending, hbuffers, hserve => by
    rcases hrun : r.action.run s with ⟨outcome, next⟩
    rcases hrest : Store.serve rs next with ⟨answers, last⟩
    rw [Store.serve, hrun] at hserve
    dsimp only at hserve
    rw [hrest] at hserve
    cases hserve
    obtain ⟨hnext, houtputs⟩ := h.action (fun buffer name hr =>
      hbuffers buffer name (hr ▸ List.mem_cons_self)) hrun
    rw [hpending, ← pending_concat] at houtputs
    rw [List.append_cons]
    exact hnext.serve houtputs
      (fun buffer name hr => hbuffers buffer name (List.mem_cons_of_mem _ hr)) hrest

/-- What can be said of a store behind a number of answers. -/
structure Accounted (answers : List Answer) (s : Store) : Prop where
  /-- The outputs that wait are registered, in the order in which they were added. -/
  outputs_eq : s.registry.outputs = pending answers
  nodup : s.registry.names.Nodup
  /-- A name is refused just if it is registered. -/
  add_conflict_iff : ∀ buffer name,
    (∃ f, ((add buffer name).run s).1 = .error f ∧ f.kind = .outputConflict) ↔
      name ∈ s.registry.names
  /-- An output that is not added changes nothing. -/
  add_error : ∀ buffer name f s', (add buffer name).run s = (.error f, s') → s' = s
  /-- A commit that fails leaves everything registered. -/
  commit_error : ∀ directory f s', (commit directory).run s = (.error f, s') →
    s'.registry = s.registry
  /-- A discard succeeds. Nothing is registered then, and the files that the buffers lead to are
  gone, but nothing else is. -/
  discard : ∃ s', Store.discard.run s = (.ok (), s') ∧ s'.registry.outputs = [] ∧
    Swept s.registry.outputs s.tree s'.tree ∧
    (s.tree.WellFormed → ∀ output ∈ s.registry.outputs, s'.tree.isFileAt output.2 ≠ .ok true)

theorem Usable.accounted {answers : List Answer} (h : Usable s.registry)
    (houtputs : s.registry.outputs = pending answers) : Accounted answers s where
  outputs_eq := houtputs
  nodup := h.nodup
  add_conflict_iff buffer name := by
    rw [run_add, Registry.add]
    by_cases hname : name ∈ s.registry.names
    · rw [if_pos hname]
      exact ⟨fun _ => hname, fun _ => ⟨_, rfl, rfl⟩⟩
    · rw [if_neg hname]
      constructor
      · rintro ⟨f, hf, -⟩
        cases hf
      · exact fun h => absurd h hname
  add_error buffer name f s' hrun := by
    rw [run_add] at hrun
    cases hadd : s.registry.add buffer name with
    | error g =>
      rw [hadd] at hrun
      cases hrun
      rfl
    | ok r =>
      rw [hadd] at hrun
      cases hrun
  commit_error directory f s' hrun := by
    have hregistry := registry_commit directory s
    rw [hrun] at hregistry
    exact hregistry
  discard := by
    obtain ⟨tree, log, hrun, hswept⟩ := run_discard_swept h.hasNul
    exact ⟨_, hrun, rfl, hswept, hswept.not_isFileAt⟩

/-- **A store keeps account of its outputs.** Behind any requests, made to a store that starts with
an empty registry while others change its tree as they like, exactly those outputs are registered
that wait; only their names are refused; and a discard clears all of them away. -/
theorem accounted_of_serve {requests : List Request} {answers : List Answer} {s : Store}
    (hbuffers : ∀ buffer name, .add buffer name ∈ requests → buffer.hasNul = false)
    (tree : FileTree) (buffers : Nat) (overwrite : Bool) (log : List Log.Record)
    (hserve : serve requests ⟨tree, buffers, .empty overwrite, log⟩ = (answers, s)) :
    Accounted answers s := by
  have hempty : (Registry.empty overwrite).outputs = pending [] := rfl
  obtain ⟨husable, houtputs⟩ := Usable.serve (.clear (.empty overwrite)) hempty hbuffers hserve
  exact husable.accounted houtputs

/-- The tree with two buffers, the second of which may have gone. -/
def twoBuffers (gone : Bool) : FileTree :=
  ⟨["w"], [(["w"], .directory), (["w", "b1"], .file (.text "one"))] ++
    if gone then [] else [(["w", "b2"], .file (.text "two"))]⟩

/-- Two outputs are added, one of them twice. Then others take a buffer away, so that the commit
stops behind its first move. -/
def interrupted : List Request :=
  [.add ⟨.relative, ["b1"]⟩ "a", .add ⟨.relative, ["b1"]⟩ "a", .add ⟨.relative, ["b2"]⟩ "b",
    .elsewhere (twoBuffers true), .commit ⟨.relative, ["out"]⟩]

/-- Behind a commit that was stopped both outputs wait, and they can be discarded. -/
theorem accounted_of_serve_interrupted :
    let (answers, s) := serve interrupted ⟨twoBuffers false, 2, .empty false, []⟩
    answers.map (·.outcome.isOk) = [true, false, true, true, false] ∧
      s.registry.outputs = [("a", ⟨.relative, ["b1"]⟩), ("b", ⟨.relative, ["b2"]⟩)] ∧
      ∃ s', Store.discard.run s = (.ok (), s') ∧ s'.registry.outputs = [] := by
  have hbuffers : ∀ buffer name, .add buffer name ∈ interrupted → buffer.hasNul = false := by
    intro buffer name hmem
    simp only [interrupted, List.mem_cons, Request.add.injEq, reduceCtorEq, List.not_mem_nil,
      or_false] at hmem
    rcases hmem with ⟨rfl, -⟩ | ⟨rfl, -⟩ | ⟨rfl, -⟩ <;> decide +kernel
  have haccounted := accounted_of_serve hbuffers (twoBuffers false) 2 false [] rfl
  obtain ⟨s', hrun, hnone, -⟩ := haccounted.discard
  exact ⟨by decide +kernel, haccounted.outputs_eq.trans (by decide +kernel), s', hrun, hnone⟩

end Folio.Store
