import Folio.Proofs.Batch.Processing

/-!
# Going through the sources

The loop over the sources, one turn at a time: a source that can be entered is followed by its
report and the rest of the loop (`run_processAll_cons`), one that cannot ends the loop. By induction
the loop either enters all sources or stops behind some of them (`run_processAll_cases`); it gets to
its end just if all can be entered and the notifier goes along (`isOk_processAll_iff`).
-/

namespace Folio.Batch

variable {ρ σ κ δ : Type}

/-- The state once progress has been reported. -/
def afterReport (notifier : Notifier) (p : Progress) (s : State σ δ) : State σ δ :=
  { s with
    store := { s.store with log := s.store.log ++ (notifier p.current p.total).1 }
    trace := s.trace ++ [.reported p.current p.total] }

/-- A report is recorded, whatever the notifier makes of it. -/
theorem run_report (notifier : Notifier) (p : Progress) (s : State σ δ) :
    (report notifier p).run s = ((notifier p.current p.total).2, afterReport notifier p s) := by
  rw [report, Step.run_bind_ok (Run.run_record _ s)]
  exact Run.run_ofExcept _ _

theorem reports_afterReport (notifier : Notifier) (p : Progress) (s : State σ δ) :
    reports (afterReport notifier p s).trace = reports s.trace ++ [(p.current, p.total)] := by
  rw [afterReport, reports_append]
  rfl

/-- The reports of a number of steps, from the one behind `current` on. -/
def reportsFrom (current total : Int) (count : Nat) : List (Int × Int) :=
  (List.range count).map fun i : Nat => (current + 1 + (i : Int), total)

theorem reportsFrom_succ (current total : Int) (count : Nat) :
    reportsFrom current total (count + 1) =
      (current + 1, total) :: reportsFrom (current + 1) total count := by
  unfold reportsFrom
  rw [List.range_succ_eq_map, List.map_cons, List.map_map]
  congr 1
  · simp
  · refine List.map_congr_left fun i _ => ?_
    simp only [Function.comp_apply]
    congr 1
    omega

section
variable {m : Medium ρ σ κ δ} {namer : Namer} {notifier : Notifier} {settings : Settings ρ}

/-- A source that cannot be entered ends the loop. -/
theorem run_processAll_cons_error (notifier : Notifier) {g : Ledger σ} {s : State σ δ}
    (hs : Agrees g s) {number : Int} {source : ρ} {f : Failure}
    (h : g.enter m namer settings number source = .error f) (rest : List ρ) (p : Progress) :
    ∃ s', (processAll m namer notifier settings number (source :: rest) p).run s =
        (.error f, s') ∧ s'.store.tree = g.tree ∧ s'.store.registry = g.registry ∧
      Opened s s' (m.openSource g.tree source).toOption.toList := by
  obtain ⟨s', hopened, hrun⟩ := run_processSource (m := m) namer settings number source hs
  rw [h] at hrun
  exact ⟨s', Step.run_bind_error hrun.1, hrun.2.1, hrun.2.2, hopened⟩

/-- A source that can be entered is entered and reported, and the loop goes on unless the notifier
fails. -/
theorem run_processAll_cons (notifier : Notifier) {g g' : Ledger σ} {s : State σ δ}
    (hs : Agrees g s) {number : Int} {source : ρ}
    (h : g.enter m namer settings number source = .ok g') (rest : List ρ) {p : Progress}
    (hp : p.current < p.total) :
    ∃ s', Agrees g' s' ∧ reports s'.trace = reports s.trace ++ [(p.current + 1, p.total)] ∧
      (.committing ∈ s'.trace → .committing ∈ s.trace) ∧
      (processAll m namer notifier settings number (source :: rest) p).run s =
        match (notifier (p.current + 1) p.total).2 with
        | .ok _ => (processAll m namer notifier settings (number + 1) rest
            { p with current := p.current + 1 }).run s'
        | .error f => (.error f, s') := by
  obtain ⟨s₁, hopened, hrun⟩ := run_processSource (m := m) namer settings number source hs
  rw [h] at hrun
  obtain ⟨name, hrun, hs₁⟩ := hrun
  have hadvance : p.advance = .ok { p with current := p.current + 1 } := by
    rw [Progress.advance, if_neg (by omega)]
  refine ⟨afterReport notifier { p with current := p.current + 1 } s₁,
    ⟨⟨hs₁.tree, hs₁.buffers, hs₁.registry⟩, hs₁.created, ?_⟩, ?_, ?_, ?_⟩
  · rw [afterReport, openings_append, hs₁.openings]
    exact List.append_nil _
  · rw [reports_afterReport, hopened.reports]
  · simpa [afterReport] using hopened.committing
  · rw [processAll, Step.run_bind_ok hrun, hadvance,
      Step.run_bind_ok (Run.run_ofExcept (.ok _) s₁), Step.run_bind, run_report]
    cases (notifier (p.current + 1) p.total).2 <;> rfl

/-- A loop over two lists of sources is a loop over the first and then one over the second. -/
theorem processAll_append (before rest : List ρ) (number : Int) (p : Progress) :
    (processAll m namer notifier settings number (before ++ rest) p : Run σ δ Progress) =
      (processAll m namer notifier settings number before p >>=
        processAll m namer notifier settings (number + before.length) rest) := by
  induction before generalizing number p with
  | nil =>
    rw [List.length_nil, Int.natCast_zero, Int.add_zero, processAll, pure_bind, List.nil_append]
  | cons source before ih =>
    have hnumber : number + 1 + (before.length : Int) =
        number + ((before.length + 1 : Nat) : Int) := by
      omega
    simp only [List.cons_append, processAll, bind_assoc, ih, hnumber, List.length_cons]

/-- **The loop over the sources** enters all of them and reports each, or it fails behind some of
them, with the buffers of those in the tree, as they cannot all be entered or the notifier fails. -/
theorem run_processAll_cases (m : Medium ρ σ κ δ) (namer : Namer) (notifier : Notifier)
    (settings : Settings ρ) :
    ∀ (sources : List ρ) (number : Int) {p : Progress} {g : Ledger σ} {s : State σ δ}, Agrees g s →
      p.current + sources.length ≤ p.total →
      ∃ s', (.committing ∈ s'.trace → .committing ∈ s.trace) ∧
        ((∃ g', (processAll m namer notifier settings number sources p).run s =
              (.ok { p with current := p.current + sources.length }, s') ∧
            g.enterAll m namer settings number sources = .ok g' ∧ Agrees g' s' ∧
            reports s'.trace = reports s.trace ++ reportsFrom p.current p.total sources.length) ∨
          ∃ f before g', (processAll m namer notifier settings number sources p).run s =
              (.error f, s') ∧ g.enterAll m namer settings number before = .ok g' ∧
            s'.store.tree = g'.tree ∧ s'.store.registry = g'.registry ∧
            (g.enterAll m namer settings number sources = .error f ∨
              ∃ current, (notifier current p.total).2 = .error f))
  | [], number, p, g, s, hs, _ => by
    refine ⟨s, id, .inl ⟨g, ?_, rfl, hs, (List.append_nil _).symm⟩⟩
    rw [List.length_nil, Int.natCast_zero, Int.add_zero]
    rfl
  | source :: rest, number, p, g, s, hs, hp => by
    rw [List.length_cons] at hp
    cases henter : g.enter m namer settings number source with
    | error f =>
      obtain ⟨s', hrun, htree, hregistry, hopened⟩ :=
        run_processAll_cons_error notifier hs henter rest p
      exact ⟨s', hopened.committing, .inr ⟨f, [], g, hrun, rfl, htree, hregistry,
        .inl (Ledger.enterAll_cons_error henter rest)⟩⟩
    | ok g₁ =>
      obtain ⟨s₁, hs₁, hreports, hcommitting, hrun⟩ :=
        run_processAll_cons notifier hs henter rest (p := p) (by omega)
      cases hnotifier : (notifier (p.current + 1) p.total).2 with
      | error f =>
        rw [hnotifier] at hrun
        exact ⟨s₁, hcommitting, .inr ⟨f, [source], g₁, hrun, Ledger.enterAll_cons henter [],
          hs₁.tree, hs₁.registry, .inr ⟨_, hnotifier⟩⟩⟩
      | ok u =>
        rw [hnotifier] at hrun
        obtain ⟨s', hcommitting', h⟩ := run_processAll_cases m namer notifier settings rest
          (number + 1) (p := { p with current := p.current + 1 }) hs₁ (by dsimp only; omega)
        refine ⟨s', hcommitting ∘ hcommitting', ?_⟩
        rcases h with ⟨g', hrun', hall, hs', hreports'⟩ |
          ⟨f, before, g', hrun', hall, htree, hregistry, hcause⟩
        · refine .inl ⟨g', ?_, (Ledger.enterAll_cons henter rest).trans hall, hs', ?_⟩
          · have hcurrent : p.current + 1 + (rest.length : Int) =
                p.current + ((rest.length + 1 : Nat) : Int) := by omega
            rw [hrun, hrun', List.length_cons, ← hcurrent]
          · rw [hreports', hreports, List.append_assoc, List.length_cons, reportsFrom_succ]
            rfl
        · refine .inr ⟨f, source :: before, g', hrun.trans hrun',
            (Ledger.enterAll_cons henter before).trans hall, htree, hregistry, ?_⟩
          rwa [Ledger.enterAll_cons henter]

/-- **When the loop gets to its end**: if all sources can be entered and the notifier goes along
with every step. -/
theorem isOk_processAll_iff (notifier : Notifier) :
    ∀ {sources : List ρ} {number : Int} {p : Progress} {g : Ledger σ} {s : State σ δ}, Agrees g s →
      p.current + sources.length ≤ p.total →
      (((processAll m namer notifier settings number sources p).run s).1.isOk = true ↔
        (∃ g', g.enterAll m namer settings number sources = .ok g') ∧
          ∀ i < sources.length, (notifier (p.current + 1 + (i : Nat)) p.total).2 = .ok ())
  | [], number, p, g, s, _, _ => by
    refine iff_of_true rfl ⟨⟨g, rfl⟩, fun _ hi => absurd hi (Nat.not_lt_zero _)⟩
  | source :: rest, number, p, g, s, hs, hp => by
    rw [List.length_cons] at hp ⊢
    cases henter : g.enter m namer settings number source with
    | error f =>
      obtain ⟨s', hrun, -⟩ := run_processAll_cons_error notifier hs henter rest p
      rw [hrun, Ledger.enterAll_cons_error henter]
      exact iff_of_false (by simp [Except.isOk, Except.toBool]) fun ⟨⟨_, h⟩, _⟩ => nomatch h
    | ok g₁ =>
      obtain ⟨s₁, hs₁, -, -, hrun⟩ :=
        run_processAll_cons notifier hs henter rest (p := p) (by omega)
      have hsteps : (∀ i < rest.length + 1,
            (notifier (p.current + 1 + (i : Nat)) p.total).2 = .ok ()) ↔
          (notifier (p.current + 1) p.total).2 = .ok () ∧
            ∀ i < rest.length, (notifier (p.current + 1 + 1 + (i : Nat)) p.total).2 = .ok () := by
        rw [Nat.forall_lt_succ_left]
        refine and_congr (by simp) (forall₂_congr fun i _ => ?_)
        rw [show p.current + 1 + ((i + 1 : Nat) : Int) = p.current + 1 + 1 + (i : Nat) by omega]
      rw [hrun, Ledger.enterAll_cons henter, hsteps]
      cases hnotifier : (notifier (p.current + 1) p.total).2 with
      | error f => exact iff_of_false (by simp [Except.isOk, Except.toBool]) fun h => nomatch h.2.1
      | ok u =>
        dsimp only
        rw [isOk_processAll_iff notifier hs₁ (by dsimp only; omega)]
        simp

end

end Folio.Batch
