import Folio.Proofs.Batch.Loop

/-!
# Handles in a run

A run holds a handle from the event that brings it to the event that lets it go. The trace of a run
is a course: one turn after another, each with a source of its own and at most one draft, closed
inside out, and nothing but reports and the commit between the turns (`onwards_run`). It does not
matter what fails, closing included. What a course says about handles is collected in `Orderly`.
-/

namespace Folio.Batch

variable {ρ σ κ δ α : Type}

/-! ## Holding handles -/

/-- A handle, by its number. -/
inductive Hold where
  | source (number : Nat)
  | draft (number : Nat)
  deriving DecidableEq, Repr

namespace Event

/-- The handle that an event brings. -/
def brings : Event σ δ → Option Hold
  | opened number _ => some (.source number)
  | created number _ => some (.draft number)
  | _ => none

/-- The source with a number, if an event closes it. -/
def closesSource (number : Nat) : Event σ δ → Option σ
  | closedSource n handle => if n = number then some handle else none
  | _ => none

/-- The draft with a number, if an event closes it. -/
def closesDraft (number : Nat) : Event σ δ → Option δ
  | closedDraft n draft => if n = number then some draft else none
  | _ => none

/-- The handles that are held behind an event. -/
def behind (held : List Hold) : Event σ δ → List Hold
  | opened number _ => .source number :: held
  | created number _ => .draft number :: held
  | closedSource number _ => held.erase (.source number)
  | closedDraft number _ => held.erase (.draft number)
  | reported _ _ | committing => held

/-- May an event come while these handles are held? A source is only opened, and the commit only
begins, with nothing held; a draft is made while its source is all that is held; and the draft has
to be closed before the source. -/
def Timely (held : List Hold) : Event σ δ → Prop
  | opened _ _ | reported _ _ | committing => held = []
  | created _ _ => ∃ source, held = [.source source]
  | closedDraft number _ => ∃ source, held = [.draft number, .source source]
  | closedSource number _ => held = [.source number]

/-- No event leaves more than two handles behind it. -/
theorem Timely.length_behind_le {held : List Hold} {e : Event σ δ} (h : e.Timely held) :
    (e.behind held).length ≤ 2 := by
  cases e with
  | opened number handle => cases h; exact Nat.le_succ 1
  | created number draft => obtain ⟨_, rfl⟩ := h; exact Nat.le_refl 2
  | closedDraft number draft =>
    obtain ⟨_, rfl⟩ := h
    exact List.length_erase_le
  | closedSource number handle =>
    cases h
    exact Nat.le_trans List.length_erase_le (Nat.le_succ 1)
  | reported current total => cases h; exact Nat.zero_le 2
  | committing => cases h; exact Nat.zero_le 2

end Event

/-- The handles that are held behind a trace. -/
def held (trace : List (Event σ δ)) : List Hold := trace.foldl Event.behind []

/-- The handles that a trace brings. -/
def brought (trace : List (Event σ δ)) : List Hold := trace.filterMap Event.brings

/-- What the source with a number is when it is closed, for each time that it is closed. -/
def sourceClosings (number : Nat) (trace : List (Event σ δ)) : List σ :=
  trace.filterMap (Event.closesSource number)

/-- What the draft with a number is when it is closed, for each time that it is closed. -/
def draftClosings (number : Nat) (trace : List (Event σ δ)) : List δ :=
  trace.filterMap (Event.closesDraft number)

theorem sourceClosings_cons (number : Nat) (e : Event σ δ) (trace : List (Event σ δ)) :
    sourceClosings number (e :: trace) =
      (e.closesSource number).toList ++ sourceClosings number trace := by
  unfold sourceClosings
  rw [List.filterMap_cons]
  cases e.closesSource number <;> rfl

theorem draftClosings_cons (number : Nat) (e : Event σ δ) (trace : List (Event σ δ)) :
    draftClosings number (e :: trace) =
      (e.closesDraft number).toList ++ draftClosings number trace := by
  unfold draftClosings
  rw [List.filterMap_cons]
  cases e.closesDraft number <;> rfl

/-- A trace keeps its handles in order. -/
structure Orderly (trace : List (Event σ δ)) : Prop where
  /-- No two handles have one number. -/
  nodup : (brought trace).Nodup
  /-- A source that is opened is closed exactly once. -/
  closed_source : ∀ {number handle}, .opened number handle ∈ trace →
    sourceClosings number trace = [handle]
  /-- A draft that is made is closed exactly once. -/
  closed_draft : ∀ {number draft}, .created number draft ∈ trace →
    ∃ draft', draftClosings number trace = [draft']
  /-- Every event comes in its time. -/
  timely : ∀ {before e after}, trace = before ++ e :: after → e.Timely (held before)
  /-- At no moment are more than two handles held. -/
  length_held_le : ∀ {before after}, trace = before ++ after → (held before).length ≤ 2
  /-- In the end no handle is held. -/
  held_eq_nil : held trace = []

/-! ## Courses -/

/-- A course of turns, with the number of sources opened and of drafts made before and behind it: a
turn opens a source, may make a draft, and closes both inside out. -/
inductive Turns : Nat → Nat → List (Event σ δ) → Nat → Nat → Prop where
  | nil (o c : Nat) : Turns o c [] o c
  | reported {o c o' c' : Nat} {rest : List (Event σ δ)} (current total : Int) :
    Turns o c rest o' c' → Turns o c (.reported current total :: rest) o' c'
  | committing {o c o' c' : Nat} {rest : List (Event σ δ)} :
    Turns o c rest o' c' → Turns o c (.committing :: rest) o' c'
  | source {o c o' c' : Nat} {rest : List (Event σ δ)} (handle : σ) :
    Turns (o + 1) c rest o' c' →
      Turns o c (.opened (o + 1) handle :: .closedSource (o + 1) handle :: rest) o' c'
  | draft {o c o' c' : Nat} {rest : List (Event σ δ)} (handle : σ) (draft draft' : δ) :
    Turns (o + 1) (c + 1) rest o' c' →
      Turns o c (.opened (o + 1) handle :: .created (c + 1) draft ::
        .closedDraft (c + 1) draft' :: .closedSource (o + 1) handle :: rest) o' c'

namespace Turns

variable {o c o' c' o'' c'' : Nat} {es es' : List (Event σ δ)}

/-- One course after another is a course. -/
theorem append (h : Turns o c es o' c') (h' : Turns o' c' es' o'' c'') :
    Turns o c (es ++ es') o'' c'' := by
  induction h with
  | nil => exact h'
  | reported current total _ ih => exact .reported current total (ih h')
  | committing _ ih => exact .committing (ih h')
  | source handle _ ih => exact .source handle (ih h')
  | draft handle draft draft' _ ih => exact .draft handle draft draft' (ih h')

/-- Handles are numbered onwards. -/
theorem lt_of_mem_brought (h : Turns o c es o' c') :
    (∀ n, .source n ∈ brought es → o < n) ∧ ∀ n, .draft n ∈ brought es → c < n := by
  induction h with
  | nil => simp [brought]
  | reported | committing => assumption
  | source handle _ ih =>
    obtain ⟨hs, hd⟩ := ih
    simp only [brought, List.filterMap_cons, Event.brings, List.mem_cons] at hs hd ⊢
    grind
  | draft handle draft draft' _ ih =>
    obtain ⟨hs, hd⟩ := ih
    simp only [brought, List.filterMap_cons, Event.brings, List.mem_cons] at hs hd ⊢
    grind

theorem nodup_brought (h : Turns o c es o' c') : (brought es).Nodup := by
  induction h with
  | nil => exact .nil
  | reported | committing => assumption
  | @source o c o' c' rest handle hrest ih =>
    have hs : .source (o + 1) ∉ brought rest := fun hmem =>
      Nat.lt_irrefl _ (hrest.lt_of_mem_brought.1 _ hmem)
    exact List.nodup_cons.2 ⟨hs, ih⟩
  | @draft o c o' c' rest handle draft draft' hrest ih =>
    have hs : .source (o + 1) ∉ brought rest := fun hmem =>
      Nat.lt_irrefl _ (hrest.lt_of_mem_brought.1 _ hmem)
    have hd : .draft (c + 1) ∉ brought rest := fun hmem =>
      Nat.lt_irrefl _ (hrest.lt_of_mem_brought.2 _ hmem)
    have hs' : .source (o + 1) ∉ Hold.draft (c + 1) :: brought rest := by
      simpa using hs
    exact List.nodup_cons.2 ⟨hs', List.nodup_cons.2 ⟨hd, ih⟩⟩

/-- A course closes nothing that was had before it. -/
theorem closings_eq_nil (h : Turns o c es o' c') :
    (∀ n ≤ o, sourceClosings n es = []) ∧ ∀ n ≤ c, draftClosings n es = [] := by
  induction h with
  | nil => exact ⟨fun _ _ => rfl, fun _ _ => rfl⟩
  | reported | committing => assumption
  | @source o c o' c' rest handle _ ih =>
    refine ⟨fun n hn => ?_, ih.2⟩
    have hne : o + 1 ≠ n := by omega
    simpa [sourceClosings_cons, Event.closesSource, hne] using ih.1 n (by omega)
  | @draft o c o' c' rest handle draft draft' _ ih =>
    constructor
    · intro n hn
      have hne : o + 1 ≠ n := by omega
      simpa [sourceClosings_cons, Event.closesSource, hne] using ih.1 n (by omega)
    · intro n hn
      have hne : c + 1 ≠ n := by omega
      simpa [draftClosings_cons, Event.closesDraft, hne] using ih.2 n (by omega)

/-- What a course opens it closes once, as it was. -/
theorem sourceClosings_of_mem (h : Turns o c es o' c') {n : Nat} {handle : σ}
    (hmem : .opened n handle ∈ es) : sourceClosings n es = [handle] := by
  have hlt : ∀ {o c o' c' : Nat} {es : List (Event σ δ)}, Turns o c es o' c' →
      .opened n handle ∈ es → o < n := fun h hmem =>
    h.lt_of_mem_brought.1 n (List.mem_filterMap.2 ⟨_, hmem, rfl⟩)
  induction h with
  | nil => cases hmem
  | reported current total hrest ih => exact ih (by simpa using hmem)
  | committing hrest ih => exact ih (by simpa using hmem)
  | @source o c o' c' rest first hrest ih =>
    have hclosed := hrest.closings_eq_nil.1
    simp only [List.mem_cons, Event.opened.injEq, reduceCtorEq, false_or] at hmem
    simp only [sourceClosings_cons, Event.closesSource, Option.toList_none, List.nil_append]
    rcases hmem with ⟨rfl, rfl⟩ | hmem
    · simp [hclosed]
    · have := hlt hrest hmem
      simp [show o + 1 ≠ n by omega, ih hmem]
  | @draft o c o' c' rest first draft draft' hrest ih =>
    have hclosed := hrest.closings_eq_nil.1
    simp only [List.mem_cons, Event.opened.injEq, reduceCtorEq, false_or] at hmem
    simp only [sourceClosings_cons, Event.closesSource, Option.toList_none, List.nil_append]
    rcases hmem with ⟨rfl, rfl⟩ | hmem
    · simp [hclosed]
    · have := hlt hrest hmem
      simp [show o + 1 ≠ n by omega, ih hmem]

/-- What a course makes it closes once, as the work has left it. -/
theorem draftClosings_of_mem (h : Turns o c es o' c') {n : Nat} {draft : δ}
    (hmem : .created n draft ∈ es) : ∃ draft', draftClosings n es = [draft'] := by
  have hlt : ∀ {o c o' c' : Nat} {es : List (Event σ δ)}, Turns o c es o' c' →
      .created n draft ∈ es → c < n := fun h hmem =>
    h.lt_of_mem_brought.2 n (List.mem_filterMap.2 ⟨_, hmem, rfl⟩)
  induction h with
  | nil => cases hmem
  | reported current total hrest ih => exact ih (by simpa using hmem)
  | committing hrest ih => exact ih (by simpa using hmem)
  | source first hrest ih => exact ih (by simpa using hmem)
  | @draft o c o' c' rest handle first first' hrest ih =>
    have hclosed := hrest.closings_eq_nil.2
    simp only [List.mem_cons, Event.created.injEq, reduceCtorEq, false_or] at hmem
    simp only [draftClosings_cons, Event.closesDraft, Option.toList_none, List.nil_append]
    rcases hmem with ⟨rfl, rfl⟩ | hmem
    · exact ⟨first', by simp [hclosed]⟩
    · have := hlt hrest hmem
      simpa [show c + 1 ≠ n by omega] using ih hmem

/-- A course starts and ends with nothing held. -/
theorem held_eq_nil (h : Turns o c es o' c') : held es = [] := by
  induction h with
  | nil => rfl
  | reported | committing => assumption
  | source handle _ ih => simpa [held, Event.behind] using ih
  | draft handle draft draft' _ ih => simpa [held, Event.behind] using ih

/-- Every event of a course comes in its time. -/
theorem timely (h : Turns o c es o' c') :
    ∀ {before e after}, es = before ++ e :: after → e.Timely (held before) := by
  intro before e after heq
  induction h generalizing before with
  | nil => simp at heq
  | reported current total hrest ih =>
    cases before with
    | nil => cases heq; rfl
    | cons _ before => cases heq; exact @ih before rfl
  | committing hrest ih =>
    cases before with
    | nil => cases heq; rfl
    | cons _ before => cases heq; exact @ih before rfl
  | source handle hrest ih =>
    rcases before with _ | ⟨_, _ | ⟨_, before⟩⟩ <;> cases heq
    · rfl
    · rfl
    · simpa [held, Event.behind] using ih rfl
  | draft handle draft draft' hrest ih =>
    rcases before with _ | ⟨_, _ | ⟨_, _ | ⟨_, _ | ⟨_, before⟩⟩⟩⟩ <;> cases heq
    · rfl
    · exact ⟨_, rfl⟩
    · exact ⟨_, rfl⟩
    · simp [held, Event.behind, Event.Timely]
    · simpa [held, Event.behind] using ih rfl

end Turns

/-- The trace of a course is orderly. -/
theorem Turns.orderly {o' c' : Nat} {trace : List (Event σ δ)} (h : Turns 0 0 trace o' c') :
    Orderly trace where
  nodup := h.nodup_brought
  closed_source := h.sourceClosings_of_mem
  closed_draft := h.draftClosings_of_mem
  timely := h.timely
  length_held_le := by
    intro before after htrace
    rcases List.eq_nil_or_concat before with rfl | ⟨before, e, rfl⟩
    · exact Nat.zero_le 2
    · rw [List.concat_eq_append] at htrace ⊢
      have htimely := h.timely (htrace.trans (List.append_assoc ..))
      rw [held, List.foldl_append]
      exact htimely.length_behind_le
  held_eq_nil := h.held_eq_nil

/-! ## Courses of runs -/

/-- Between two states the trace has gone on by a course. -/
def Onwards (s s' : State σ δ) : Prop :=
  ∃ es, s'.trace = s.trace ++ es ∧ Turns s.opened s.created es s'.opened s'.created

namespace Onwards

variable {s₁ s₂ s₃ : State σ δ}

theorem refl (s : State σ δ) : Onwards s s := ⟨[], (List.append_nil _).symm, .nil ..⟩

theorem trans (h : Onwards s₁ s₂) (h' : Onwards s₂ s₃) : Onwards s₁ s₃ := by
  obtain ⟨es, htrace, hturns⟩ := h
  obtain ⟨es', htrace', hturns'⟩ := h'
  exact ⟨es ++ es', by rw [htrace', htrace, List.append_assoc], hturns.append hturns'⟩

/-- The store does not matter. -/
theorem withStore (h : Onwards s₁ s₂) (st : Store) : Onwards s₁ { s₂ with store := st } := h

end Onwards

section
variable {m : Medium ρ σ κ δ} {namer : Namer} {notifier : Notifier} {settings : Settings ρ}

/-- Building a draft only changes the store. -/
theorem exists_store_of_build (m : Medium ρ σ κ δ) (settings : Settings ρ)
    (name : Except Failure String) (text : String) (handle : σ) (draft : δ) (s : State σ δ) :
    ∃ r st, (build m settings name text handle draft).run s = (r, { s with store := st }) := by
  obtain ⟨d, st, h⟩ := run_build m settings name text handle draft
    (g := ⟨s.store.tree, s.store.buffers, s.store.registry, []⟩) (s := s) ⟨rfl, rfl, rfl⟩
  split at h
  · obtain ⟨n, hrun, -⟩ := h
    exact ⟨_, st, hrun⟩
  · exact ⟨_, st, h.1⟩

/-- The work on an opened source makes no draft, or it makes one and closes it. -/
inductive Drafted (s : State σ δ) : State σ δ → Prop where
  | none : Drafted s s
  | one (draft draft' : δ) (st : Store) : Drafted s { s with
      store := st
      created := s.created + 1
      trace := s.trace ++ [.created (s.created + 1) draft, .closedDraft (s.created + 1) draft'] }

/-- Whatever comes of building a draft, it is closed behind that. -/
theorem drafted_of_withDraft (settings : Settings ρ) (name : Except Failure String) (text : String)
    (handle : σ) (s : State σ δ) :
    Drafted s ((Run.withDraft m (build m settings name text handle)).run s).2 := by
  cases hdraft : m.newDraft s.created with
  | error f =>
    rw [Run.run_withDraft_error hdraft]
    exact .none
  | ok draft =>
    obtain ⟨⟨outcome, draft'⟩, st, hbuild⟩ := exists_store_of_build m settings name text handle
      draft (Run.afterCreate draft s)
    rw [Run.run_withDraft_ok hdraft hbuild]
    simp only [Run.afterClose, Run.afterCreate, List.append_assoc]
    exact .one draft draft' _

/-- What is done with an opened source leaves its draft closed. -/
theorem drafted_of_ensure (settings : Settings ρ) (name : Except Failure String) (text : String)
    (handle : σ) (s : State σ δ) :
    Drafted s ((do
      Run.ofExcept (m.ensure .copyAndExtract handle)
      Run.withDraft m (build m settings name text handle) : Run σ δ String).run s).2 := by
  cases m.ensure .copyAndExtract handle with
  | error f =>
    rw [Step.run_bind_error (Run.run_ofExcept (.error f) s)]
    exact .none
  | ok u =>
    rw [Step.run_bind_ok (Run.run_ofExcept (.ok u) s)]
    exact drafted_of_withDraft settings name text handle s

/-- Work on a source that leaves its draft closed is a turn, once the source is closed too. -/
theorem onwards_withSource {body : σ → Run σ δ α}
    (hbody : ∀ handle s, Drafted s ((body handle).run s).2) (source : ρ) (s : State σ δ) :
    Onwards s ((Run.withSource m source body).run s).2 := by
  cases hopen : m.openSource s.store.tree source with
  | error f =>
    rw [Run.run_withSource_error hopen]
    exact .refl s
  | ok handle =>
    have hdrafted := hbody handle (Run.afterOpen handle s)
    rcases hrun : (body handle).run (Run.afterOpen handle s) with ⟨outcome, s'⟩
    rw [Run.run_withSource_ok hopen hrun]
    rw [hrun] at hdrafted
    cases hdrafted with
    | none =>
      refine ⟨[.opened (s.opened + 1) handle, .closedSource (s.opened + 1) handle], ?_,
        .source handle (.nil ..)⟩
      simp [Run.afterClose]
    | one draft draft' st =>
      refine ⟨[.opened (s.opened + 1) handle, .created (s.created + 1) draft,
        .closedDraft (s.created + 1) draft', .closedSource (s.opened + 1) handle], ?_,
        .draft handle draft draft' (.nil ..)⟩
      simp [Run.afterClose, Run.afterOpen]

/-- **One turn**: whatever comes of processing a source, its draft and then the source are closed
behind it. -/
theorem onwards_processSource (number : Int) (source : ρ) (s : State σ δ) :
    Onwards s ((processSource m namer settings number source).run s).2 := by
  rw [processSource, Step.run_bind_ok (Run.run_note _ s)]
  exact onwards_withSource (fun handle s => drafted_of_ensure settings _ _ handle s) source _

/-- A report is one event. -/
theorem onwards_report (notifier : Notifier) (p : Progress) (s : State σ δ) :
    Onwards s ((report notifier p).run s).2 := by
  rw [run_report]
  exact ⟨[.reported p.current p.total], rfl, .reported _ _ (.nil ..)⟩

/-- A step that goes on by a course, and what follows it. -/
theorem Onwards.bind {β : Type} {x : Run σ δ α} {f : α → Run σ δ β} {s : State σ δ}
    (hx : Onwards s (x.run s).2) (hf : ∀ a s, Onwards s ((f a).run s).2) :
    Onwards s ((x >>= f).run s).2 := by
  rcases hrun : x.run s with ⟨_ | a, s'⟩ <;> rw [hrun] at hx
  · rwa [Step.run_bind_error hrun]
  · rw [Step.run_bind_ok hrun]
    exact hx.trans (hf a s')

/-- The loop over the sources takes one turn after another. -/
theorem onwards_processAll : ∀ (sources : List ρ) (number : Int) (p : Progress) (s : State σ δ),
    Onwards s ((processAll m namer notifier settings number sources p).run s).2
  | [], _, _, s => .refl s
  | source :: rest, number, p, s => by
    refine (onwards_processSource number source s).bind fun _ s => ?_
    refine .bind (by rw [Run.run_ofExcept]; exact .refl s) fun p s => ?_
    exact (onwards_report notifier p s).bind fun _ s =>
      onwards_processAll rest (number + 1) p s

/-- What only changes the store is no event. -/
theorem onwards_onStore (action : Store.Action α) (s : State σ δ) :
    Onwards s ((Run.onStore action : Run σ δ α).run s).2 :=
  (Onwards.refl s).withStore _

/-- The commit begins behind the last turn. -/
theorem onwards_processAndCommit (output : Path) (s : State σ δ) :
    Onwards s ((processAndCommit m namer notifier settings output).run s).2 := by
  refine (onwards_processAll settings.sources 1 _ s).bind fun p s => ?_
  refine .bind ⟨[.committing], by rw [Run.run_record], .committing (.nil ..)⟩ fun _ s => ?_
  exact (onwards_onStore _ s).bind fun _ s => .refl s

/-- A rescue that only changes the store adds no event. -/
theorem Onwards.orElseDo {body : Run σ δ α} {s : State σ δ} (h : Onwards s (body.run s).2)
    (action : Store.Action Unit) :
    Onwards s ((Run.orElseDo body (Run.onStore action)).run s).2 := by
  obtain ⟨st, hst⟩ := Run.run_orElseDo_onStore body action s
  rw [hst]
  exact h.withStore st

/-- The trace of a run is a course, whatever fails. -/
theorem onwards_run (m : Medium ρ σ κ δ) (namer : Namer) (notifier : Notifier)
    (settings : Settings ρ) (s : State σ δ) :
    Onwards s ((run m namer notifier settings).run s).2 := by
  refine .bind (by rw [Run.run_ofExcept]; exact .refl s) fun output s => ?_
  refine .bind ((Onwards.refl s).withStore _) fun _ s => ?_
  refine ((onwards_processAndCommit output s).orElseDo _).bind fun p s => ?_
  exact (onwards_onStore _ s).bind fun _ s => .refl s

/-- **Handles in a run**: whatever fails in a run, every source that it opens and every draft that
it makes is closed exactly once, the draft before its source, and both before the next source is
opened and before the commit begins, so that never more than two handles are held. -/
theorem orderly_of_run (m : Medium ρ σ κ δ) (namer : Namer) (notifier : Notifier)
    (settings : Settings ρ) (store : Store) :
    Orderly ((run m namer notifier settings).run (.start store)).2.trace := by
  obtain ⟨es, htrace, hturns⟩ := onwards_run m namer notifier settings (.start store)
  rw [htrace]
  exact hturns.orderly

end

end Folio.Batch
