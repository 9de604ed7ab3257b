import Folio.Batch.Run
import Folio.Proofs.Effects

/-!
# Parts of a run

What the building blocks of a run do to its state: a source or a draft that cannot be had leaves the
state as it is; one that can be had is closed behind the work, whatever comes of that. Two runs over
media that open the same handles (`Run.Paired`) go side by side if what they do with them does.
-/

namespace Folio.Batch

variable {ρ σ κ δ α : Type}

/-! ## Traces -/

/-- The sources that were opened. -/
def openings (trace : List (Event σ δ)) : List σ :=
  trace.filterMap fun e => match e with | .opened _ handle => some handle | _ => none

/-- The progress that was reported. -/
def reports (trace : List (Event σ δ)) : List (Int × Int) :=
  trace.filterMap fun e => match e with
    | .reported current total => some (current, total)
    | _ => none

@[simp] theorem openings_append (trace trace' : List (Event σ δ)) :
    openings (trace ++ trace') = openings trace ++ openings trace' := List.filterMap_append

@[simp] theorem reports_append (trace trace' : List (Event σ δ)) :
    reports (trace ++ trace') = reports trace ++ reports trace' := List.filterMap_append

/-- Between two states the given sources were opened, nothing was reported and no commit began. -/
structure Opened (s s' : State σ δ) (handles : List σ) : Prop where
  openings : openings s'.trace = openings s.trace ++ handles
  reports : reports s'.trace = reports s.trace
  committing : .committing ∈ s'.trace → .committing ∈ s.trace

theorem Opened.refl (s : State σ δ) : Opened s s [] := ⟨by simp, rfl, id⟩

theorem Opened.trans {s₁ s₂ s₃ : State σ δ} {handles handles' : List σ}
    (h : Opened s₁ s₂ handles) (h' : Opened s₂ s₃ handles') :
    Opened s₁ s₃ (handles ++ handles') where
  openings := by rw [h'.openings, h.openings, List.append_assoc]
  reports := h'.reports.trans h.reports
  committing := h.committing ∘ h'.committing

/-- Only the trace matters. -/
theorem Opened.congr {s₁ s₂ s₃ : State σ δ} {handles : List σ} (h : Opened s₁ s₂ handles)
    (htrace : s₃.trace = s₂.trace) : Opened s₁ s₃ handles where
  openings := htrace ▸ h.openings
  reports := htrace ▸ h.reports
  committing := htrace ▸ h.committing

namespace Run

/-! ## Building blocks -/

@[simp] theorem run_ofExcept (x : Except Failure α) (s : State σ δ) :
    (ofExcept x : Run σ δ α).run s = (x, s) := by
  cases x <;> rfl

theorem run_onStore (action : Store.Action α) (s : State σ δ) :
    (onStore action : Run σ δ α).run s =
      ((action.run s.store).1, { s with store := (action.run s.store).2 }) := rfl

@[simp] theorem run_note (r : Log.Record) (s : State σ δ) :
    (note r : Run σ δ Unit).run s =
      (.ok (), { s with store := { s.store with log := s.store.log ++ [r] } }) := rfl

@[simp] theorem run_record (e : Event σ δ) (s : State σ δ) :
    (record e : Run σ δ Unit).run s = (.ok (), { s with trace := s.trace ++ [e] }) := rfl

theorem run_onBench (work : Work δ α) (draft : δ) (s : State σ δ) :
    (onBench work draft).run s =
      (((work.run ⟨draft, s.store.log⟩).1, (work.run ⟨draft, s.store.log⟩).2.draft),
        { s with store := { s.store with log := (work.run ⟨draft, s.store.log⟩).2.log } }) := rfl

theorem run_orElseDo_ok {body : Run σ δ α} {rescue : Run σ δ Unit} {s s' : State σ δ} {a : α}
    (h : body.run s = (.ok a, s')) : (orElseDo body rescue).run s = (.ok a, s') := by
  simp only [orElseDo, ExceptT.run_mk, h]

/-- A rescue that succeeds does not hide the failure. -/
theorem run_orElseDo_error {body : Run σ δ α} {rescue : Run σ δ Unit} {s s' s'' : State σ δ}
    {f : Failure} (h : body.run s = (.error f, s')) (hrescue : rescue.run s' = (.ok (), s'')) :
    (orElseDo body rescue).run s = (.error f, s'') := by
  simp only [orElseDo, ExceptT.run_mk, h, hrescue]

/-- What succeeds has not been rescued. -/
theorem run_orElseDo_eq_ok {body : Run σ δ α} {rescue : Run σ δ Unit} {s s' : State σ δ} {a : α}
    (h : (orElseDo body rescue).run s = (.ok a, s')) : body.run s = (.ok a, s') := by
  rcases hbody : body.run s with ⟨f | b, s₁⟩
  · rcases hrescue : rescue.run s₁ with ⟨g | ⟨⟨⟩⟩, s₂⟩
    · simp only [orElseDo, ExceptT.run_mk, hbody, hrescue] at h
      cases h
    · rw [run_orElseDo_error hbody hrescue] at h
      cases h
  · rw [run_orElseDo_ok hbody] at h
    cases h
    rfl

/-- A rescue that only changes the store leaves the rest of the state as it is. -/
theorem run_orElseDo_onStore (body : Run σ δ α) (action : Store.Action Unit) (s : State σ δ) :
    ∃ store, ((orElseDo body (onStore action)).run s).2 = { (body.run s).2 with store } := by
  simp only [orElseDo, ExceptT.run_mk]
  rcases body.run s with ⟨f | a, s'⟩
  · dsimp only
    rw [run_onStore]
    rcases action.run s'.store with ⟨g | ⟨⟨⟩⟩, st⟩ <;> exact ⟨st, rfl⟩
  · exact ⟨s'.store, rfl⟩

/-! ## Scopes -/

section
variable {m : Medium ρ σ κ δ} {source : ρ} {s : State σ δ}

/-- The state once a source has been opened. -/
def afterOpen (handle : σ) (s : State σ δ) : State σ δ :=
  { s with opened := s.opened + 1, trace := s.trace ++ [.opened (s.opened + 1) handle] }

/-- The state once a draft has been made. -/
def afterCreate (draft : δ) (s : State σ δ) : State σ δ :=
  { s with created := s.created + 1, trace := s.trace ++ [.created (s.created + 1) draft] }

theorem opened_afterOpen (handle : σ) (s : State σ δ) : Opened s (afterOpen handle s) [handle] := by
  constructor <;> simp [afterOpen, openings, reports]

theorem opened_afterCreate (draft : δ) (s : State σ δ) : Opened s (afterCreate draft s) [] := by
  constructor <;> simp [afterCreate, openings, reports]

theorem opened_afterClose_source (name : String) (closes : Bool) (number : Nat) (handle : σ)
    (s : State σ δ) : Opened s (afterClose name closes (.closedSource number handle) s) [] := by
  constructor <;> simp [afterClose, openings, reports]

theorem opened_afterClose_draft (name : String) (closes : Bool) (number : Nat) (draft : δ)
    (s : State σ δ) : Opened s (afterClose name closes (.closedDraft number draft) s) [] := by
  constructor <;> simp [afterClose, openings, reports]

theorem run_withSource_error {body : σ → Run σ δ α} {f : Failure}
    (h : m.openSource s.store.tree source = .error f) :
    (withSource m source body).run s = (.error f, s) := by
  rw [withSource, Step.run_bind_ok (Step.run_get s), h]
  exact Step.run_bind_error (run_ofExcept (.error f) s)

theorem run_withSource_ok {body : σ → Run σ δ α} {handle : σ} {outcome : Except Failure α}
    {s' : State σ δ} (h : m.openSource s.store.tree source = .ok handle)
    (hbody : (body handle).run (afterOpen handle s) = (outcome, s')) :
    (withSource m source body).run s =
      (outcome, afterClose (m.sourceName handle) (m.sourceCloses handle)
        (.closedSource (s.opened + 1) handle) s') := by
  have hrun : (withSource m source body).run s =
      (((body handle).run (afterOpen handle s)).1,
        afterClose (m.sourceName handle) (m.sourceCloses handle)
          (.closedSource (s.opened + 1) handle) ((body handle).run (afterOpen handle s)).2) := by
    unfold withSource
    rw [Step.run_bind_ok (Step.run_get s), h]
    rfl
  rw [hrun, hbody]

theorem run_withDraft_error {body : δ → StateM (State σ δ) (Except Failure α × δ)} {f : Failure}
    (h : m.newDraft s.created = .error f) : (withDraft m body).run s = (.error f, s) := by
  rw [withDraft, Step.run_bind_ok (Step.run_get s), h]
  exact Step.run_bind_error (run_ofExcept (.error f) s)

theorem run_withDraft_ok {body : δ → StateM (State σ δ) (Except Failure α × δ)} {draft draft' : δ}
    {outcome : Except Failure α} {s' : State σ δ} (h : m.newDraft s.created = .ok draft)
    (hbody : (body draft).run (afterCreate draft s) = ((outcome, draft'), s')) :
    (withDraft m body).run s =
      (outcome, afterClose (m.draftName draft') (m.draftCloses draft')
        (.closedDraft (s.created + 1) draft') s') := by
  have hrun : (withDraft m body).run s =
      (((body draft).run (afterCreate draft s)).1.1,
        afterClose (m.draftName ((body draft).run (afterCreate draft s)).1.2)
          (m.draftCloses ((body draft).run (afterCreate draft s)).1.2)
          (.closedDraft (s.created + 1) ((body draft).run (afterCreate draft s)).1.2)
          ((body draft).run (afterCreate draft s)).2) := by
    unfold withDraft
    rw [Step.run_bind_ok (Step.run_get s), h]
    rfl
  rw [hrun, hbody]

end

/-! ## Runs side by side -/

section
variable {r : State σ δ → State σ δ → Prop}

theorem alongside_ofExcept (x : Except Failure α) :
    Step.Alongside r (ofExcept x : Run σ δ α) (ofExcept x) := fun s s' h => by
  rw [run_ofExcept, run_ofExcept]
  exact ⟨rfl, h⟩

/-- A rescue goes the same way in both runs, and so does the failure that it was called for. -/
theorem abreast_orElseDo {body body' : Run σ δ α} {rescue rescue' : Run σ δ Unit}
    {s s' : State σ δ} (hbody : Abreast r (body.run s) (body'.run s'))
    (hrescue : Step.Alongside r rescue rescue') :
    Abreast r ((orElseDo body rescue).run s) ((orElseDo body' rescue').run s') := by
  obtain ⟨hsame, hstates⟩ := hbody
  simp only [orElseDo, ExceptT.run_mk]
  rcases hrun : body.run s with ⟨f | a, t⟩ <;> rcases hrun' : body'.run s' with ⟨outcome, t'⟩ <;>
    rw [hrun, hrun'] at hsame hstates <;> cases hsame
  · obtain ⟨hsame, hstates⟩ := hrescue hstates
    dsimp only at hsame hstates ⊢
    rcases hrun : rescue.run t with ⟨g | ⟨⟨⟩⟩, u⟩ <;>
      rcases hrun' : rescue'.run t' with ⟨outcome, u'⟩ <;>
      rw [hrun, hrun'] at hsame hstates <;> cases hsame
    · exact ⟨rfl, hstates⟩
    · exact ⟨rfl, hstates⟩
  · exact ⟨rfl, hstates⟩

/-- In related states two media open the same handles, and closing one keeps the states related. -/
structure Paired (m m' : Medium ρ σ κ δ) (r : State σ δ → State σ δ → Prop) : Prop where
  opened : ∀ {s s'}, r s s' → s'.opened = s.opened
  created : ∀ {s s'}, r s s' → s'.created = s.created
  openSource : ∀ {s s'} source, r s s' →
    m'.openSource s'.store.tree source = m.openSource s.store.tree source
  newDraft : ∀ count, m'.newDraft count = m.newDraft count
  afterOpen : ∀ {s s'} handle, r s s' → r (afterOpen handle s) (afterOpen handle s')
  afterCreate : ∀ {s s'} draft, r s s' → r (afterCreate draft s) (afterCreate draft s')
  closeSource : ∀ {s s'} number handle, r s s' →
    r (afterClose (m.sourceName handle) (m.sourceCloses handle) (.closedSource number handle) s)
      (afterClose (m'.sourceName handle) (m'.sourceCloses handle) (.closedSource number handle) s')
  closeDraft : ∀ {s s'} number draft, r s s' →
    r (afterClose (m.draftName draft) (m.draftCloses draft) (.closedDraft number draft) s)
      (afterClose (m'.draftName draft) (m'.draftCloses draft) (.closedDraft number draft) s')

namespace Paired

variable {m m' : Medium ρ σ κ δ}

/-- Scopes of sources side by side: closing is the last thing done in them, so what fails in them
goes out of both. -/
theorem withSource (h : Paired m m' r) {body body' : σ → Run σ δ α}
    (hbody : ∀ handle, Step.Alongside r (body handle) (body' handle)) (source : ρ) :
    Step.Alongside r (withSource m source body) (withSource m' source body') := by
  intro s s' hs
  have hopen' := h.openSource source hs
  cases hopen : m.openSource s.store.tree source with
  | error f =>
    rw [run_withSource_error hopen, run_withSource_error (hopen'.trans hopen)]
    exact ⟨rfl, hs⟩
  | ok handle =>
    obtain ⟨hsame, hstates⟩ := hbody handle (h.afterOpen handle hs)
    rcases hrun : (body handle).run (Run.afterOpen handle s) with ⟨outcome, t⟩
    rcases hrun' : (body' handle).run (Run.afterOpen handle s') with ⟨outcome', t'⟩
    rw [hrun, hrun'] at hsame hstates
    cases hsame
    rw [run_withSource_ok hopen hrun, run_withSource_ok (hopen'.trans hopen) hrun', h.opened hs]
    exact ⟨rfl, h.closeSource _ handle hstates⟩

/-- Scopes of drafts side by side. -/
theorem withDraft (h : Paired m m' r)
    {body body' : δ → StateM (State σ δ) (Except Failure α × δ)}
    (hbody : ∀ draft {s s'}, r s s' → Abreast r ((body draft).run s) ((body' draft).run s')) :
    Step.Alongside r (withDraft m body) (withDraft m' body') := by
  intro s s' hs
  have hdraft' : m'.newDraft s'.created = m.newDraft s.created := by
    rw [h.newDraft, h.created hs]
  cases hdraft : m.newDraft s.created with
  | error f =>
    rw [run_withDraft_error hdraft, run_withDraft_error (hdraft'.trans hdraft)]
    exact ⟨rfl, hs⟩
  | ok draft =>
    obtain ⟨hsame, hstates⟩ := hbody draft (h.afterCreate draft hs)
    rcases hrun : (body draft).run (Run.afterCreate draft s) with ⟨⟨outcome, d⟩, t⟩
    rcases hrun' : (body' draft).run (Run.afterCreate draft s') with ⟨⟨outcome', d'⟩, t'⟩
    rw [hrun, hrun'] at hsame hstates
    cases hsame
    rw [run_withDraft_ok hdraft hrun, run_withDraft_ok (hdraft'.trans hdraft) hrun', h.created hs]
    exact ⟨rfl, h.closeDraft _ d hstates⟩

end Paired

end

end Run

/-- The loop over the sources goes the same way in both runs if each source and each report does. -/
theorem alongside_processAll {m m' : Medium ρ σ κ δ} {r : State σ δ → State σ δ → Prop}
    {namer : Namer} {notifier : Notifier} {settings : Settings ρ}
    (hsource : ∀ number source, Step.Alongside r (processSource m namer settings number source)
      (processSource m' namer settings number source))
    (hreport : ∀ p, Step.Alongside r (report notifier p : Run σ δ Unit) (report notifier p)) :
    ∀ (sources : List ρ) (number : Int) (p : Progress), Step.Alongside r
      (processAll m namer notifier settings number sources p : Run σ δ Progress)
      (processAll m' namer notifier settings number sources p)
  | [], _, p => .pure p
  | source :: rest, number, _ =>
    (hsource number source).bind fun _ => (Run.alongside_ofExcept _).bind fun p =>
      (hreport p).bind fun _ => alongside_processAll hsource hreport rest (number + 1) p

end Folio.Batch
