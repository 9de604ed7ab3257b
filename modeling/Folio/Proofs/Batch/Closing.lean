import Folio.Proofs.Batch.Holding
import Folio.Proofs.Log.Unread

/-!
# Handles that cannot be closed

A run over a medium is set beside the run in which every handle can be closed. Both go the same way,
as nothing reads the log and closing does nothing else that could fail: `Aside` relates their states
and is kept by every part of a run (`Step.Alongside`), also while a failure is on its way out. In
the end the logs differ in the warnings about handles, one for each that could not be closed
(`Unclosed`).
-/

namespace Folio

/-! ## Interleaved lists -/

/-- The third list has the items of the first and those of the second, each in their order. -/
inductive Interleaved {α : Type} : List α → List α → List α → Prop where
  | nil : Interleaved [] [] []
  | left {xs ys zs : List α} (x : α) : Interleaved xs ys zs → Interleaved (x :: xs) ys (x :: zs)
  | right {xs ys zs : List α} (y : α) : Interleaved xs ys zs → Interleaved xs (y :: ys) (y :: zs)

namespace Interleaved

variable {α : Type} {xs ys zs xs' ys' zs' : List α}

theorem left_self : ∀ xs : List α, Interleaved xs [] xs
  | [] => .nil
  | x :: xs => .left x (left_self xs)

theorem right_self : ∀ ys : List α, Interleaved [] ys ys
  | [] => .nil
  | y :: ys => .right y (right_self ys)

theorem append (h : Interleaved xs ys zs) (h' : Interleaved xs' ys' zs') :
    Interleaved (xs ++ xs') (ys ++ ys') (zs ++ zs') := by
  induction h with
  | nil => exact h'
  | left x _ ih => exact .left x ih
  | right y _ ih => exact .right y ih

/-- Where only items of the second list are kept, the first one leaves no trace. -/
theorem filter_eq_right {p : α → Bool} (h : Interleaved xs ys zs) (hxs : xs.filter p = [])
    (hys : ∀ y ∈ ys, p y = true) : zs.filter p = ys := by
  induction h with
  | nil => rfl
  | left x _ ih =>
    rw [List.filter_cons] at hxs ⊢
    split at hxs
    · cases hxs
    · next hx =>
      rw [if_neg hx]
      exact ih hxs hys
  | right y _ ih =>
    obtain ⟨hy, hys⟩ := List.forall_mem_cons.1 hys
    rw [List.filter_cons_of_pos hy, ih hxs hys]

/-- Where only items of the first list are kept, the second one leaves no trace. -/
theorem filter_eq {p : α → Bool} (h : Interleaved xs ys zs) (hys : ∀ y ∈ ys, p y = false) :
    zs.filter p = xs.filter p := by
  induction h with
  | nil => rfl
  | left x _ ih => rw [List.filter_cons, List.filter_cons, ih hys]
  | right y _ ih =>
    obtain ⟨hy, hys⟩ := List.forall_mem_cons.1 hys
    rw [List.filter_cons_of_neg (by simp [hy]), ih hys]

end Interleaved

variable {ρ σ κ δ α β : Type}

/-- The medium with every handle made to close. -/
def Medium.smooth (m : Medium ρ σ κ δ) : Medium ρ σ κ δ :=
  { m with sourceCloses := fun _ => true, draftCloses := fun _ => true }

namespace Batch

open Step

/-! ## Handles that could not be closed -/

/-- The handle that an event does not get closed, with its name. -/
def failedClosing (m : Medium ρ σ κ δ) : Event σ δ → Option (Hold × String)
  | .closedSource number handle =>
    if m.sourceCloses handle then none else some (.source number, m.sourceName handle)
  | .closedDraft number draft =>
    if m.draftCloses draft then none else some (.draft number, m.draftName draft)
  | _ => none

/-- The handles of a trace that could not be closed, with their names, in the order in which they
were to be closed. -/
def unclosed (m : Medium ρ σ κ δ) (trace : List (Event σ δ)) : List (Hold × String) :=
  trace.filterMap (failedClosing m)

/-- Some handles with their names are all those of a trace that cannot be closed: no handle is among
them twice, a source is among them just if it was opened and cannot be closed, and a draft just if
it was made and cannot be closed as it is in the end. -/
structure Unclosed (m : Medium ρ σ κ δ) (trace : List (Event σ δ))
    (handles : List (Hold × String)) : Prop where
  nodup : (handles.map Prod.fst).Nodup
  source_mem : ∀ {number : Nat} {name : String}, (.source number, name) ∈ handles ↔
    ∃ handle, .opened number handle ∈ trace ∧ m.sourceCloses handle = false ∧
      m.sourceName handle = name
  draft_mem : ∀ {number : Nat} {name : String}, (.draft number, name) ∈ handles ↔
    ∃ draft draft', .created number draft ∈ trace ∧ draftClosings number trace = [draft'] ∧
      m.draftCloses draft' = false ∧ m.draftName draft' = name

/-- The handle that an event closes. -/
def Event.closes : Event σ δ → Option Hold
  | .closedSource number _ => some (.source number)
  | .closedDraft number _ => some (.draft number)
  | _ => none

namespace Turns

variable {o c o' c' : Nat} {es : List (Event σ δ)}

/-- A course closes what it brings. -/
theorem perm_closes (h : Turns o c es o' c') :
    (es.filterMap Event.closes).Perm (brought es) := by
  induction h with
  | nil => exact .refl _
  | reported | committing => assumption
  | source handle _ ih => exact ih.cons _
  | draft handle draft draft' _ ih => exact ((ih.cons _).cons _).trans (.swap ..)

/-- The sources that a course closes are those that it opens. -/
theorem closedSource_mem_iff (h : Turns o c es o' c') {n : Nat} {handle : σ} :
    .closedSource n handle ∈ es ↔ .opened n handle ∈ es := by
  induction h with
  | nil => simp
  | reported | committing | source | draft => simp_all

/-- The drafts that a course closes are those that it makes. -/
theorem exists_created_of_closedDraft (h : Turns o c es o' c') {n : Nat} {draft' : δ}
    (hmem : .closedDraft n draft' ∈ es) : ∃ draft, .created n draft ∈ es := by
  induction h with
  | nil => cases hmem
  | reported _ _ _ ih | committing _ ih | source _ _ ih =>
    obtain ⟨draft, hdraft⟩ := ih (by simpa using hmem)
    exact ⟨draft, by simp [hdraft]⟩
  | draft _ first first' _ ih =>
    simp only [List.mem_cons, Event.closedDraft.injEq, reduceCtorEq, false_or] at hmem
    rcases hmem with ⟨rfl, rfl⟩ | hmem
    · exact ⟨first, by simp⟩
    · obtain ⟨draft, hdraft⟩ := ih hmem
      exact ⟨draft, by simp [hdraft]⟩

end Turns

theorem mem_draftClosings {number : Nat} {draft : δ} {trace : List (Event σ δ)} :
    draft ∈ draftClosings number trace ↔ .closedDraft number draft ∈ trace := by
  rw [draftClosings, List.mem_filterMap]
  constructor
  · rintro ⟨e, he, hcloses⟩
    unfold Event.closesDraft at hcloses
    split at hcloses
    · split at hcloses
      · next n d hn =>
        cases hcloses
        exact hn ▸ he
      · cases hcloses
    · cases hcloses
  · intro h
    exact ⟨_, h, if_pos rfl⟩

theorem failedClosing_eq_source {m : Medium ρ σ κ δ} {e : Event σ δ} {number : Nat}
    {name : String} : failedClosing m e = some (.source number, name) ↔
      ∃ handle, e = .closedSource number handle ∧ m.sourceCloses handle = false ∧
        m.sourceName handle = name := by
  cases e with
  | closedSource n handle => cases h : m.sourceCloses handle <;> simp [failedClosing, h]
  | closedDraft n draft => cases h : m.draftCloses draft <;> simp [failedClosing, h]
  | opened | created | reported | committing => simp [failedClosing]

theorem failedClosing_eq_draft {m : Medium ρ σ κ δ} {e : Event σ δ} {number : Nat}
    {name : String} : failedClosing m e = some (.draft number, name) ↔
      ∃ draft, e = .closedDraft number draft ∧ m.draftCloses draft = false ∧
        m.draftName draft = name := by
  cases e with
  | closedSource n handle => cases h : m.sourceCloses handle <;> simp [failedClosing, h]
  | closedDraft n draft => cases h : m.draftCloses draft <;> simp [failedClosing, h]
  | opened | created | reported | committing => simp [failedClosing]

/-- Only what is to be closed can fail to be closed. -/
theorem map_fst_unclosed_sublist (m : Medium ρ σ κ δ) : ∀ trace : List (Event σ δ),
    ((unclosed m trace).map Prod.fst).Sublist (trace.filterMap Event.closes)
  | [] => .slnil
  | e :: trace => by
    have ih := map_fst_unclosed_sublist m trace
    unfold unclosed at ih ⊢
    rw [List.filterMap_cons, List.filterMap_cons]
    cases e with
    | closedSource n handle =>
      simp only [failedClosing, Event.closes]
      cases m.sourceCloses handle with
      | false => exact ih.cons_cons _
      | true => exact ih.cons _
    | closedDraft n draft =>
      simp only [failedClosing, Event.closes]
      cases m.draftCloses draft with
      | false => exact ih.cons_cons _
      | true => exact ih.cons _
    | opened | created | reported | committing => exact ih

/-- **The handles of a course that could not be closed** are all that cannot be closed. -/
theorem Turns.unclosed {m : Medium ρ σ κ δ} {o c o' c' : Nat} {trace : List (Event σ δ)}
    (h : Turns o c trace o' c') : Unclosed m trace (unclosed m trace) where
  nodup := (h.perm_closes.nodup_iff.2 h.nodup_brought).sublist (map_fst_unclosed_sublist m trace)
  source_mem {number name} := by
    simp only [Batch.unclosed, List.mem_filterMap, failedClosing_eq_source]
    constructor
    · rintro ⟨_, he, handle, rfl, hcloses, hname⟩
      exact ⟨handle, h.closedSource_mem_iff.1 he, hcloses, hname⟩
    · rintro ⟨handle, he, hcloses, hname⟩
      exact ⟨_, h.closedSource_mem_iff.2 he, handle, rfl, hcloses, hname⟩
  draft_mem {number name} := by
    simp only [Batch.unclosed, List.mem_filterMap, failedClosing_eq_draft]
    constructor
    · rintro ⟨_, he, draft', rfl, hcloses, hname⟩
      obtain ⟨draft, hdraft⟩ := h.exists_created_of_closedDraft he
      obtain ⟨draft'', hclosings⟩ := h.draftClosings_of_mem hdraft
      have hmem := mem_draftClosings.2 he
      rw [hclosings, List.mem_singleton] at hmem
      exact ⟨draft, draft'', hdraft, hclosings, hmem ▸ hcloses, hmem ▸ hname⟩
    · rintro ⟨draft, draft', hdraft, hclosings, hcloses, hname⟩
      have hmem : draft' ∈ draftClosings number trace := by simp [hclosings]
      exact ⟨_, mem_draftClosings.1 hmem, draft', rfl, hcloses, hname⟩

/-! ## Warnings -/

/-- The warning about a handle that could not be closed. -/
def unableToClose (name : String) : Log.Record := Log.warning "batch" s!"Unable to close {name}"

/-- The warnings about the handles of a trace that could not be closed, one for each. -/
def closeWarnings (m : Medium ρ σ κ δ) (trace : List (Event σ δ)) : List Log.Record :=
  (unclosed m trace).map fun h => unableToClose h.2

theorem closeWarnings_concat (m : Medium ρ σ κ δ) (trace : List (Event σ δ)) (e : Event σ δ) :
    closeWarnings m (trace ++ [e]) = closeWarnings m trace ++ closeWarnings m [e] := by
  rw [closeWarnings, unclosed, List.filterMap_append, List.map_append]
  rfl

/-- A handle is noted when it is closed just if that fails. -/
theorem closeWarnings_closedSource (m : Medium ρ σ κ δ) (number : Nat) (handle : σ) :
    closeWarnings m [.closedSource number handle] =
      Run.closeNotes (m.sourceName handle) (m.sourceCloses handle) := by
  simp only [closeWarnings, unclosed, List.filterMap_cons, failedClosing, Run.closeNotes]
  cases m.sourceCloses handle <;> rfl

theorem closeWarnings_closedDraft (m : Medium ρ σ κ δ) (number : Nat) (draft : δ) :
    closeWarnings m [.closedDraft number draft] =
      Run.closeNotes (m.draftName draft) (m.draftCloses draft) := by
  simp only [closeWarnings, unclosed, List.filterMap_cons, failedClosing, Run.closeNotes]
  cases m.draftCloses draft <;> rfl

/-- Is this a warning about a handle that cannot be closed? -/
def isCloseWarning (r : Log.Record) : Bool :=
  decide (r.logger = Log.partLogger "batch") && decide (r.level = .warning) &&
    "Unable to close ".toList.isPrefixOf r.message.toList

theorem isCloseWarning_of_mem {m : Medium ρ σ κ δ} {trace : List (Event σ δ)} {r : Log.Record}
    (h : r ∈ closeWarnings m trace) : isCloseWarning r = true := by
  obtain ⟨x, -, rfl⟩ := List.mem_map.1 h
  simp only [isCloseWarning, unableToClose, Log.warning, decide_true, Bool.and_self, Bool.true_and,
    String.toList_append, List.isPrefixOf_iff_prefix]
  exact List.prefix_append ..

/-! ## Runs side by side -/

/-- The second state is the first one but for the log, which has the warnings about handles among
the notes of the first. -/
structure Aside (m : Medium ρ σ κ δ) (s s' : State σ δ) : Prop where
  same : s' = { s with store := { s.store with log := s'.store.log } }
  log : Interleaved s.store.log (closeWarnings m s.trace) s'.store.log

namespace Aside

variable {m : Medium ρ σ κ δ} {s s' : State σ δ}

theorem refl_start (m : Medium ρ σ κ δ) (store : Store) :
    Aside m (.start store) (.start store : State σ δ) :=
  ⟨rfl, .left_self _⟩

theorem tree (h : Aside m s s') : s'.store.tree = s.store.tree := by rw [h.same]

theorem trace (h : Aside m s s') : s'.trace = s.trace := by rw [h.same]

theorem created (h : Aside m s s') : s'.created = s.created := by rw [h.same]

theorem opened (h : Aside m s s') : s'.opened = s.opened := by rw [h.same]

/-- What does not look at the log and closes nothing does the same to both states. -/
theorem of_noted {run : State σ δ → β × State σ δ} (h : Aside m s s')
    (hnoted : ∀ notes s, run (s.noted notes) = ((run s).1, (run s).2.noted notes))
    (hquiet : ∀ s, closeWarnings m (run s).2.trace = closeWarnings m s.trace) :
    (run s').1 = (run s).1 ∧ Aside m (run s).2 (run s').2 := by
  obtain ⟨base, hbase⟩ : ∃ base : State σ δ, base =
      { s with store := { s.store with log := [] } } := ⟨_, rfl⟩
  have hs : s = base.noted s.store.log := by
    simp [hbase, State.noted, Store.noted]
  have hs' : s' = base.noted s'.store.log := by
    rw [h.same]
    simp [hbase, State.noted, Store.noted]
  have hwarnings : closeWarnings m (run base).2.trace = closeWarnings m s.trace := by
    rw [hquiet, hbase]
  rw [hs, hs', hnoted, hnoted]
  refine ⟨rfl, rfl, ?_⟩
  have hlog := h.log.append (.left_self (run base).2.store.log)
  rwa [List.append_nil, ← hwarnings] at hlog

/-- A handle is closed in both runs; the second one warns if it cannot be closed. -/
theorem afterClose (h : Aside m s s') (name : String) {closes : Bool} {e : Event σ δ}
    (he : closeWarnings m [e] = Run.closeNotes name closes) :
    Aside m (Run.afterClose name true e s) (Run.afterClose name closes e s') where
  same := by
    rw [h.same]
    rfl
  log := by
    have hlog := h.log.append (.right_self (Run.closeNotes name closes))
    simpa [Run.afterClose, Run.closeNotes, closeWarnings_concat, he] using hlog

/-- An event that closes nothing happens in both runs. -/
theorem afterEvent (h : Aside m s s') {e : Event σ δ} (he : closeWarnings m [e] = [])
    {o c : Nat} : Aside m { s with opened := o, created := c, trace := s.trace ++ [e] }
      { s' with opened := o, created := c, trace := s'.trace ++ [e] } where
  same := by
    rw [h.same]
  log := by
    have hlog := h.log
    rwa [closeWarnings_concat, he, List.append_nil]

end Aside

section
variable {m : Medium ρ σ κ δ}

/-- A part of a run that does not look at the log and closes nothing. -/
theorem alongside_of_ignores {x : Run σ δ α} (hx : ∀ notes, Ignores (State.noted notes) x)
    (hquiet : ∀ s, closeWarnings m (x.run s).2.trace = closeWarnings m s.trace) :
    Alongside (Aside m) x x := fun _ _ h =>
  h.of_noted hx hquiet

theorem alongside_onStore {action : Store.Action α}
    (h : ∀ notes, Ignores (Store.noted notes) action) :
    Alongside (Aside m) (Run.onStore action : Run σ δ α) (Run.onStore action) :=
  alongside_of_ignores (fun notes => Run.ignores_onStore (h notes)) fun _ => rfl

theorem alongside_note (r : Log.Record) :
    Alongside (Aside m) (Run.note r : Run σ δ Unit) (Run.note r) :=
  alongside_onStore fun _ => Store.ignores_note r

/-- A medium opens the handles of its smooth form, and its warnings are what sets them apart. -/
theorem paired_smooth : Run.Paired m.smooth m (Aside m) where
  opened h := h.opened
  created h := h.created
  openSource source h := congrArg (m.openSource · source) h.tree
  newDraft _ := rfl
  afterOpen {s s'} handle h := by
    have := h.afterEvent (e := .opened (s.opened + 1) handle) rfl (o := s.opened + 1)
      (c := s.created)
    simpa only [Run.afterOpen, h.created, h.opened] using this
  afterCreate {s s'} draft h := by
    have := h.afterEvent (e := .created (s.created + 1) draft) rfl (o := s.opened)
      (c := s.created + 1)
    simpa only [Run.afterCreate, h.created, h.opened] using this
  closeSource _ _ h := h.afterClose _ (closeWarnings_closedSource ..)
  closeDraft _ _ h := h.afterClose _ (closeWarnings_closedDraft ..)

variable {namer : Namer} {settings : Settings ρ}

theorem splitPages_smooth : ∀ pages : List (Except Failure (SourcePage κ)),
    (splitPages m.smooth pages : Work δ Unit) = splitPages m pages
  | [] => rfl
  | page :: rest => by
    simp only [splitPages, splitPages_smooth rest]
    rfl

theorem replay_smooth : ∀ moves : List Nat, (replay m.smooth moves : Work δ Unit) = replay m moves
  | [] => rfl
  | p :: ps => by
    simp only [replay, replay_smooth ps]
    rfl

theorem repaginate_smooth (mode : Repagination) :
    (repaginate m.smooth mode : Work δ (List Nat)) = repaginate m mode := by
  cases mode with
  | none => rfl
  | lastFirst =>
    simp only [repaginate, replay_smooth]
    rfl

/-- Building a draft closes nothing, so it is the same over both media. -/
theorem build_smooth (settings : Settings ρ) (name : Except Failure String) (text : String)
    (handle : σ) :
    build m.smooth settings name text handle = build m settings name text handle := by
  have hfill : fill m.smooth settings text handle = fill m settings text handle := by
    simp only [fill, splitDocument, splitPages_smooth, repaginate_smooth]
    rfl
  funext draft
  unfold build
  rw [hfill]
  rfl

/-- **One source** goes the same way in both runs. -/
theorem alongside_processSource (number : Int) (source : ρ) :
    Alongside (Aside m) (processSource m.smooth namer settings number source : Run σ δ String)
      (processSource m namer settings number source) := by
  refine (alongside_note _).bind fun _ => paired_smooth.withSource (fun handle => ?_) source
  refine (Run.alongside_ofExcept _).bind fun _ => ?_
  rw [build_smooth]
  refine paired_smooth.withDraft fun draft s s' h => ?_
  refine h.of_noted (fun notes s => run_build_noted settings _ _ handle draft s) fun s => ?_
  obtain ⟨outcome, st, hrun⟩ := exists_store_of_build m settings
    (namer settings.pattern (m.name source) number) (m.text source) handle draft s
  exact congrArg (fun x => closeWarnings m x.2.trace) hrun

/-- A report closes nothing. -/
theorem alongside_report (notifier : Notifier) (p : Progress) :
    Alongside (Aside m) (report notifier p : Run σ δ Unit) (report notifier p) := by
  refine alongside_of_ignores (fun notes => ?_) fun s => ?_
  · refine (Run.ignores_record _).bind fun _ => .bind (.modify fun s => ?_) fun _ =>
      Run.ignores_ofExcept _
    simp [State.noted, Store.noted]
  · rw [run_report, afterReport, closeWarnings_concat]
    exact List.append_nil _

/-- The loop over the sources goes the same way in both runs, and so does the commit. -/
theorem alongside_processAndCommit (notifier : Notifier) (output : Path) :
    Alongside (Aside m)
      (processAndCommit m.smooth namer notifier settings output : Run σ δ Progress)
      (processAndCommit m namer notifier settings output) := by
  refine (alongside_processAll alongside_processSource (alongside_report notifier)
    settings.sources 1 _).bind fun p => ?_
  refine .bind (alongside_of_ignores (fun _ => Run.ignores_record _) fun s => ?_) fun _ => ?_
  · rw [Run.run_record, closeWarnings_concat]
    exact List.append_nil _
  · exact (alongside_onStore fun _ => Store.ignores_commit output).bind fun _ => .pure p

/-- **Runs side by side**: a run in which some handles cannot be closed and the one in which all
can. -/
theorem alongside_run (m : Medium ρ σ κ δ) (namer : Namer) (notifier : Notifier)
    (settings : Settings ρ) :
    Alongside (Aside m) (run m.smooth namer notifier settings : Run σ δ Progress)
      (run m namer notifier settings) := by
  refine (Run.alongside_ofExcept _).bind fun output => ?_
  refine .bind (alongside_of_ignores (fun _ => .modify fun _ => rfl) fun _ => rfl) fun _ => ?_
  refine .bind (fun s s' h => Run.abreast_orElseDo (alongside_processAndCommit notifier output h)
    (alongside_onStore fun _ => Store.ignores_discard)) fun p => ?_
  exact (alongside_note _).bind fun _ => .pure p

/-- **Handles that cannot be closed show in the log only.** A run ends as it would if every handle
could be closed: with the same outcome, tree, reports and openings. Every handle that it comes to is
closed once. Its log has the notes of the other run, and among them one warning for each handle that
could not be closed, which is every handle that the run came to and that cannot be closed. -/
theorem run_of_smooth (m : Medium ρ σ κ δ) (namer : Namer) (notifier : Notifier)
    (settings : Settings ρ) (store : Store) :
    let smooth := (run m.smooth namer notifier settings).run (.start store)
    let actual := (run m namer notifier settings).run (.start store)
    actual.1 = smooth.1 ∧ actual.2.store.tree = smooth.2.store.tree ∧
      reports actual.2.trace = reports smooth.2.trace ∧
      openings actual.2.trace = openings smooth.2.trace ∧ Orderly actual.2.trace ∧
      Unclosed m actual.2.trace (unclosed m actual.2.trace) ∧
      Interleaved smooth.2.store.log
        ((unclosed m actual.2.trace).map fun h => unableToClose h.2) actual.2.store.log ∧
      actual.2.store.log.filter (fun r => !isCloseWarning r) =
        smooth.2.store.log.filter fun r => !isCloseWarning r := by
  intro smooth actual
  obtain ⟨houtcome, haside⟩ := alongside_run m namer notifier settings (Aside.refl_start m store)
  have htrace : actual.2.trace = smooth.2.trace := haside.trace
  have hlog : Interleaved smooth.2.store.log (closeWarnings m actual.2.trace)
      actual.2.store.log := htrace ▸ haside.log
  obtain ⟨es, hes, hturns⟩ := onwards_run m namer notifier settings (.start store)
  obtain rfl : actual.2.trace = es := hes
  have hfilter := hlog.filter_eq (p := fun r => !isCloseWarning r) fun r hr => by
    rw [isCloseWarning_of_mem hr]
    rfl
  exact ⟨houtcome, haside.tree, congrArg reports htrace, congrArg openings htrace,
    hturns.orderly, hturns.unclosed, hlog, hfilter⟩

/-- A batch of two rehearsed sources, neither of which can be closed. The second one may not be
copied. -/
def stuckSettings : Settings Rehearsal.Source where
  sources := [⟨"a", [⟨0, 0, 800, 600⟩], none, false, true⟩, ⟨"b", [], some [], false, true⟩]
  output := some ⟨.relative, ["out"]⟩
  pattern := "split_"
  overwrite := false
  version := none
  repagination := .none

/-- Neither the draft nor the two sources can be closed. There is one warning about each of them,
and the failure is that of the second source. -/
theorem run_of_smooth_stuck :
    let m := Rehearsal.medium { Rehearsal.Plan.smooth with stuck := true }
    let namer := namerAt ⟨2024, 3, 9, 14, 5, 7, 0⟩
    let store : Store := ⟨⟨["w"], [(["w"], .directory), (["w", "tmp"], .directory)]⟩, 0,
      .empty false, []⟩
    let smooth := (run m.smooth namer .silent stuckSettings).run (.start store)
    let actual := (run m namer .silent stuckSettings).run (.start store)
    smooth.1 = actual.1 ∧
      actual.1.mapError Failure.message =
        .error "b does not grant the COPY_AND_EXTRACT permission" ∧
      actual.2.store.log.filter isCloseWarning =
        [⟨"spreadsplit.batch", .warning, "Unable to close <new>"⟩,
          ⟨"spreadsplit.batch", .warning, "Unable to close a"⟩,
          ⟨"spreadsplit.batch", .warning, "Unable to close b"⟩] ∧
      actual.2.store.log.filter (fun r => !isCloseWarning r) = smooth.2.store.log := by
  intro m namer store
  have hruns := run_of_smooth m namer .silent stuckSettings store
  have hmessage : ((run m.smooth namer .silent stuckSettings).run
      (.start store)).1.mapError Failure.message =
        .error "b does not grant the COPY_AND_EXTRACT permission" := by
    decide +kernel
  have hunclosed : unclosed m ((run m namer .silent stuckSettings).run (.start store)).2.trace =
      [(.draft 1, "<new>"), (.source 1, "a"), (.source 2, "b")] := by
    decide +kernel
  have hquiet : ((run m.smooth namer .silent stuckSettings).run
      (.start store)).2.store.log.filter isCloseWarning = [] := by
    decide +kernel
  -- what the two runs are does not matter any more, and is not to be looked into
  generalize (run m.smooth namer .silent stuckSettings).run (.start store) = smooth at *
  generalize (run m namer .silent stuckSettings).run (.start store) = actual at *
  obtain ⟨houtcome, -, -, -, -, -, hlog, hfilter⟩ := hruns
  rw [hunclosed] at hlog
  refine ⟨houtcome.symm, houtcome ▸ hmessage, ?_, hfilter.trans ?_⟩
  · exact hlog.filter_eq_right hquiet (by decide +kernel)
  · simpa using List.filter_eq_nil_iff.1 hquiet

end

end Batch

end Folio
