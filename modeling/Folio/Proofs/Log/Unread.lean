import Folio.Proofs.Batch.Processing

/-!
# The log is never read

What is noted is added behind what was noted before, and nothing looks at it again: every part of a
run does the same with any other notes before its own (`Step.Ignores`). So the notes that two runs
start from may differ without any other difference between them.
-/

namespace Folio

variable {ρ σ κ δ α : Type} {notes : List Log.Record}

/-- The bench with notes before its own. -/
def Bench.noted (notes : List Log.Record) (b : Bench δ) : Bench δ :=
  { b with log := notes ++ b.log }

/-- The store with notes before its own. -/
def Store.noted (notes : List Log.Record) (s : Store) : Store := { s with log := notes ++ s.log }

open Step

/-! ## Work on a draft -/

namespace Work

theorem ignores_draft : Ignores (Bench.noted notes) (draft : Work δ δ) := fun _ => rfl

theorem ignores_change (f : δ → δ) : Ignores (Bench.noted notes) (change f) :=
  .modify fun _ => rfl

theorem ignores_note (r : Log.Record) : Ignores (Bench.noted notes) (note r : Work δ Unit) :=
  .modify fun b => by simp [Bench.noted]

theorem ignores_ofExcept (x : Except Failure α) :
    Ignores (Bench.noted notes) (ofExcept x : Work δ α) := by
  cases x with
  | error f => exact .throw f
  | ok a => exact .pure a

theorem ignores_attempt (f : δ → Except Failure δ) : Ignores (Bench.noted notes) (attempt f) := by
  refine ignores_draft.bind fun d => ?_
  cases f d with
  | error e => exact .throw e
  | ok d => exact ignores_change _

theorem ignores_disturb (f : δ → Except Failure Unit × δ) :
    Ignores (Bench.noted notes) (disturb f) := by
  refine ignores_draft.bind fun d => (ignores_change _).bind fun _ => ?_
  cases (f d).1 with
  | error e => exact .throw e
  | ok => exact .pure ()

end Work

section
variable {m : Medium ρ σ κ δ}

theorem ignores_splitPage (page : SourcePage κ) : Ignores (Bench.noted notes) (splitPage m page) :=
  (Work.ignores_ofExcept _).bind fun _ => (Work.ignores_change _).bind fun _ =>
    (Work.ignores_note _).bind fun _ => .pure _

theorem ignores_splitPages :
    ∀ pages, Ignores (Bench.noted notes) (splitPages m pages)
  | [] => .pure ()
  | page :: rest => (Work.ignores_ofExcept page).bind fun readable =>
    (ignores_splitPage readable).bind fun _ => ignores_splitPages rest

theorem ignores_splitDocument (handle : σ) :
    Ignores (Bench.noted notes) (splitDocument m handle) :=
  (ignores_splitPages _).bind fun _ => .pure _

theorem ignores_replay : ∀ moves, Ignores (Bench.noted notes) (replay m moves)
  | [] => .pure ()
  | _ :: ps => (Work.ignores_disturb _).bind fun _ => ignores_replay ps

theorem ignores_repaginate (mode : Repagination) :
    Ignores (Bench.noted notes) (repaginate m mode) := by
  cases mode with
  | none => exact .pure []
  | lastFirst =>
    refine Work.ignores_draft.bind fun d => (ignores_replay _).bind fun _ => ?_
    exact Work.ignores_draft.bind fun d => (Work.ignores_note _).bind fun _ => .pure _

end

/-! ## Changes of the store -/

namespace Store

theorem ignores_note (r : Log.Record) : Ignores (noted notes) (note r) :=
  .modify fun s => by simp [noted]

theorem ignores_onTree (f : FileTree → Except FileError FileTree) :
    Ignores (noted notes) (onTree f) := by
  refine .get_bind (fun _ => rfl) fun s => ?_
  cases f s.tree with
  | error e => exact .throw _
  | ok tree => exact .modify fun _ => rfl

theorem ignores_halfway (f : FileTree → Except FileError Unit × FileTree) :
    Ignores (noted notes) (halfway f) := fun _ => rfl

theorem ignores_createBuffer (suffix : String) : Ignores (noted notes) (createBuffer suffix) :=
  .get_bind (fun _ => rfl) fun _ => .bind (.modify fun _ => rfl) fun _ =>
    (ignores_onTree _).bind fun _ => .pure _

theorem ignores_add (buffer : Path) (name : String) : Ignores (noted notes) (add buffer name) := by
  refine .get_bind (fun _ => rfl) fun s => ?_
  cases s.registry.add buffer name with
  | error f => exact .throw f
  | ok registry => exact .modify fun _ => rfl

theorem ignores_discardAll : ∀ outputs, Ignores (noted notes) (discardAll outputs)
  | [] => .pure ()
  | (name, buffer) :: rest => by
    refine .get_bind (fun _ => rfl) fun s => ?_
    have hrest := fun _ : Unit => ignores_discardAll rest
    split
    · exact .bind (.modify fun _ => rfl) hrest
    · exact .bind (.pure ()) hrest
    · exact .bind (.throw _) hrest
    · exact (ignores_note _).bind hrest

theorem ignores_discard : Ignores (noted notes) discard :=
  .get_bind (fun _ => rfl) fun _ => (ignores_discardAll _).bind fun _ => .modify fun _ => rfl

theorem ignores_refuseExisting (directory : Path) :
    Ignores (noted notes) (refuseExisting directory) := by
  refine .get_bind (fun _ => rfl) fun s => ?_
  rcases existingTargets s.tree directory s.registry.names with e | _ | ⟨target, targets⟩
  · exact .throw _
  · exact .pure ()
  · exact .throw _

theorem ignores_moveAll (directory : Path) :
    ∀ outputs, Ignores (noted notes) (moveAll directory outputs)
  | [] => .pure ()
  | (name, buffer) :: rest => by
    have hrest := fun _ : Unit => ignores_moveAll directory rest
    refine (ignores_halfway _).bind fun outcome => ?_
    split
    · exact (ignores_note _).bind hrest
    · exact .bind (.throw _) hrest
    · exact .bind (.throw _) hrest

theorem ignores_commit (directory : Path) : Ignores (noted notes) (commit directory) := by
  refine (ignores_halfway _).bind fun outcome => ?_
  have hrest : Ignores (noted notes) (do
      if (← get).registry.overwrite = false then refuseExisting directory
      moveAll directory (← get).registry.outputs
      modify fun s => { s with registry := s.registry.clear } : Action Unit) := by
    have hmove : Ignores (noted notes) (do
        moveAll directory (← get).registry.outputs
        modify fun s => { s with registry := s.registry.clear } : Action Unit) :=
      .get_bind (fun _ => rfl) fun _ => (ignores_moveAll directory _).bind fun _ =>
        .modify fun _ => rfl
    refine .get_bind (fun _ => rfl) fun s => ?_
    split
    · exact (ignores_refuseExisting directory).bind fun _ => hmove
    · exact hmove
  cases outcome with
  | error e => exact .throw _
  | ok => exact hrest

end Store

/-! ## Parts of a run -/

namespace Batch

/-- The state with notes before its own. -/
def State.noted (notes : List Log.Record) (s : State σ δ) : State σ δ :=
  { s with store := s.store.noted notes }

namespace Run

theorem ignores_ofExcept (x : Except Failure α) :
    Ignores (State.noted notes) (ofExcept x : Run σ δ α) := fun s => by
  rw [run_ofExcept, run_ofExcept]

theorem ignores_onStore {action : Store.Action α} (h : Ignores (Store.noted notes) action) :
    Ignores (State.noted notes) (onStore action : Run σ δ α) := fun s => by
  have hstore : (s.noted notes).store = s.store.noted notes := rfl
  rw [run_onStore, run_onStore, hstore, h]
  rfl

theorem ignores_note (r : Log.Record) : Ignores (State.noted notes) (note r : Run σ δ Unit) :=
  ignores_onStore (Store.ignores_note r)

theorem ignores_record (e : Event σ δ) : Ignores (State.noted notes) (record e) :=
  .modify fun _ => rfl

theorem ignores_orElseDo {body : Run σ δ α} {rescue : Run σ δ Unit}
    (hbody : Ignores (State.noted notes) body) (hrescue : Ignores (State.noted notes) rescue) :
    Ignores (State.noted notes) (orElseDo body rescue) := by
  intro s
  simp only [orElseDo, ExceptT.run_mk, hbody s]
  rcases body.run s with ⟨f | a, s'⟩
  · simp only [hrescue s']
    rcases rescue.run s' with ⟨g | ⟨⟨⟩⟩, s''⟩ <;> rfl
  · rfl

end Run

theorem ignores_makeBuffer : Ignores (State.noted notes) (makeBuffer : Run σ δ Path) :=
  (Run.ignores_onStore (Store.ignores_createBuffer _)).bind fun _ =>
    (Run.ignores_note _).bind fun _ => .pure _

section
variable {m : Medium ρ σ κ δ}

theorem ignores_fill (settings : Settings ρ) (text : String) (handle : σ) :
    Ignores (Bench.noted notes) (fill m settings text handle) :=
  (Work.ignores_attempt _).bind fun _ => (Work.ignores_disturb _).bind fun _ =>
    (ignores_splitDocument handle).bind fun _ => Work.ignores_draft.bind fun _ =>
      (Work.ignores_note _).bind fun _ => (ignores_repaginate _).bind fun _ => .pure ()

theorem ignores_deposit (name : Except Failure String) (buffer : Path) (draft : δ) :
    Ignores (State.noted notes) (deposit m name buffer draft : Run σ δ String) := by
  refine Run.ignores_orElseDo ?_ (.modify fun _ => rfl)
  refine .get_bind (fun _ => rfl) fun s => (Run.ignores_ofExcept _).bind fun sent => ?_
  refine .bind (.modify fun s => by simp [State.noted, Store.noted]) fun _ => ?_
  exact (Run.ignores_ofExcept name).bind fun name =>
    (Run.ignores_onStore (Store.ignores_add buffer name)).bind fun _ => .pure name

/-- Building a draft does not look at the log, and keeps what is in it. -/
theorem run_build_noted (settings : Settings ρ) (name : Except Failure String) (text : String)
    (handle : σ) (draft : δ) (s : State σ δ) :
    (build m settings name text handle draft).run (s.noted notes) =
      (((build m settings name text handle draft).run s).1,
        ((build m settings name text handle draft).run s).2.noted notes) := by
  have hnoted : (fill m settings text handle).run (.noted notes ⟨draft, s.store.log⟩) = _ :=
    ignores_fill settings text handle ⟨draft, s.store.log⟩
  rcases hfill : (fill m settings text handle).run ⟨draft, s.store.log⟩ with ⟨f | ⟨⟨⟩⟩, b⟩
  · rw [hfill] at hnoted
    rw [run_build_of_fill_error hfill,
      run_build_of_fill_error (s := s.noted notes) (b := b.noted notes) hnoted]
    rfl
  · rw [hfill] at hnoted
    have hbuffered : makeBuffer.run (State.noted notes
        { s with store := { s.store with log := b.log } }) = _ :=
      ignores_makeBuffer { s with store := { s.store with log := b.log } }
    rcases hbuffer : makeBuffer.run { s with store := { s.store with log := b.log } } with
      ⟨f | buffer, s'⟩
    · rw [hbuffer] at hbuffered
      rw [run_build_of_buffer_error hfill hbuffer,
        run_build_of_buffer_error (s := s.noted notes) (b := b.noted notes) hnoted hbuffered]
      rfl
    · rw [hbuffer] at hbuffered
      rw [run_build_of_buffer hfill hbuffer rfl,
        run_build_of_buffer (s := s.noted notes) (b := b.noted notes) hnoted hbuffered
          (ignores_deposit name buffer b.draft s')]
      rfl

end

end Batch

end Folio
