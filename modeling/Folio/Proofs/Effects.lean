/-!
# Steps that may fail

Work on a draft, changes of the store and parts of a run are all steps on a state that may fail and
keep the state as they leave it. This module says what such a step does to a state when it is put
together from smaller ones; no other module opens the monad.
-/

namespace Folio

variable {ε σ α β : Type}

/-- A step that may fail and keeps the state in either case. -/
abbrev Step (ε σ α : Type) := ExceptT ε (StateM σ) α

/-! ## Outcomes -/

theorem ok_bind (a : α) (f : α → Except ε β) : (Except.ok a >>= f) = f a := rfl

/-- A bind of outcomes that succeeds, taken apart. -/
theorem ok_of_bind {x : Except ε α} {f : α → Except ε β} {b : β} (h : (x >>= f) = .ok b) :
    ∃ a, x = .ok a ∧ f a = .ok b := by
  cases x with
  | error e => cases h
  | ok a => exact ⟨a, rfl, h⟩

/-- A bind of outcomes that fails, at its beginning or behind it. -/
theorem error_of_bind {x : Except ε α} {f : α → Except ε β} {e : ε} (h : (x >>= f) = .error e) :
    x = .error e ∨ ∃ a, x = .ok a ∧ f a = .error e := by
  cases x with
  | error e' =>
    cases h
    exact .inl rfl
  | ok a => exact .inr ⟨a, rfl, h⟩

/-- Two outcomes are the same error, or results that are related. -/
inductive Matching {α' : Type} (r : α → α' → Prop) : Except ε α → Except ε α' → Prop where
  | ok {a : α} {a' : α'} (h : r a a') : Matching r (.ok a) (.ok a')
  | error (e : ε) : Matching r (.error e) (.error e)

/-- Two outcomes are the same, next to states that are related. -/
def Abreast {σ' : Type} (r : σ → σ' → Prop) (x : α × σ) (x' : α × σ') : Prop :=
  x'.1 = x.1 ∧ r x.2 x'.2

/-! ## Where a list stops -/

/-- All items of a list have a property, or there is a first one that has not. -/
theorem all_or_first (P : α → Prop) [DecidablePred P] (l : List α) :
    (∀ a ∈ l, P a) ∨
      ∃ front bad back, l = front ++ bad :: back ∧ (∀ a ∈ front, P a) ∧ ¬ P bad := by
  cases hfind : l.find? fun a => decide ¬ P a with
  | none => exact .inl (by simpa using hfind)
  | some bad =>
    obtain ⟨hbad, front, back, hl, hfront⟩ := List.find?_eq_some_iff_append.1 hfind
    exact .inr ⟨front, bad, back, hl, by simpa using hfront, by simpa using hbad⟩

namespace Step

/-! ## Steps -/

@[simp] theorem run_pure (a : α) (s : σ) : (pure a : Step ε σ α).run s = (.ok a, s) := rfl

@[simp] theorem run_throw (e : ε) (s : σ) : (throw e : Step ε σ α).run s = (.error e, s) := rfl

@[simp] theorem run_get (s : σ) : (get : Step ε σ σ).run s = (.ok s, s) := rfl

@[simp] theorem run_modify (f : σ → σ) (s : σ) :
    (modify f : Step ε σ Unit).run s = (.ok (), f s) := rfl

/-- One step after another: the second starts where the first ends, unless that fails. -/
theorem run_bind (x : Step ε σ α) (f : α → Step ε σ β) (s : σ) :
    (x >>= f).run s =
      match x.run s with
      | (.ok a, s') => (f a).run s'
      | (.error e, s') => (.error e, s') := by
  show (ExceptT.bindCont f (x.run s).1 : StateM σ (Except ε β)) (x.run s).2 = _
  cases x.run s with
  | mk outcome s' => cases outcome <;> rfl

/-- What follows a step that succeeds. -/
theorem run_bind_ok {x : Step ε σ α} {f : α → Step ε σ β} {s s' : σ} {a : α}
    (h : x.run s = (.ok a, s')) : (x >>= f).run s = (f a).run s' := by
  rw [run_bind, h]

/-- Nothing follows a step that fails. -/
theorem run_bind_error {x : Step ε σ α} {f : α → Step ε σ β} {s s' : σ} {e : ε}
    (h : x.run s = (.error e, s')) : (x >>= f).run s = (.error e, s') := by
  rw [run_bind, h]

/-- Two steps that succeed together succeed one by one. -/
theorem run_bind_eq_ok {x : Step ε σ α} {f : α → Step ε σ β} {s s'' : σ} {b : β}
    (h : (x >>= f).run s = (.ok b, s'')) :
    ∃ a s', x.run s = (.ok a, s') ∧ (f a).run s' = (.ok b, s'') := by
  rcases hx : x.run s with ⟨_ | a, s'⟩
  · rw [run_bind_error hx] at h
    cases h
  · exact ⟨a, s', rfl, run_bind_ok hx ▸ h⟩

/-- Whether a step succeeds can be computed. -/
theorem run_eq_ok {x : Step ε σ α} {s : σ} (h : (x.run s).1.isOk = true) :
    ∃ a, x.run s = (.ok a, (x.run s).2) := by
  rcases hx : x.run s with ⟨_ | a, s'⟩
  · rw [hx] at h
    cases h
  · exact ⟨a, rfl⟩

theorem run_eq_error {x : Step ε σ α} {s : σ} (h : (x.run s).1.isOk = false) :
    ∃ e, x.run s = (.error e, (x.run s).2) := by
  rcases hx : x.run s with ⟨e | _, s'⟩
  · exact ⟨e, rfl⟩
  · rw [hx] at h
    cases h

/-- What follows a step that cannot fail. -/
theorem run_bind_state {x : StateM σ α} {f : α → StateM σ β} {s s' : σ} {a : α}
    (h : x.run s = (a, s')) : (x >>= f).run s = (f a).run s' := by
  rw [StateT.run_bind, h]
  rfl

/-! ## Steps that leave something unread -/

/-- A step does not look at what `p` changes in the state, and keeps the change. -/
def Ignores (p : σ → σ) (x : Step ε σ α) : Prop :=
  ∀ s, x.run (p s) = ((x.run s).1, p (x.run s).2)

namespace Ignores

variable {p : σ → σ}

theorem pure (a : α) : Ignores p (pure a : Step ε σ α) := fun _ => rfl

theorem throw (e : ε) : Ignores p (throw e : Step ε σ α) := fun _ => rfl

theorem modify {f : σ → σ} (h : ∀ s, f (p s) = p (f s)) :
    Ignores p (modify f : Step ε σ Unit) := fun s => by
  rw [run_modify, run_modify, h]

theorem bind {x : Step ε σ α} {f : α → Step ε σ β} (hx : Ignores p x)
    (hf : ∀ a, Ignores p (f a)) : Ignores p (x >>= f) := by
  intro s
  rcases hrun : x.run s with ⟨e | a, s'⟩
  · have hrun' : x.run (p s) = (.error e, p s') := by rw [hx, hrun]
    rw [run_bind_error hrun, run_bind_error hrun']
  · have hrun' : x.run (p s) = (.ok a, p s') := by rw [hx, hrun]
    rw [run_bind_ok hrun, run_bind_ok hrun', hf]

/-- A step may look at the state if what it looks at is not changed by `p`. -/
theorem get_bind {f : σ → Step ε σ β} (hp : ∀ s, f (p s) = f s) (hf : ∀ s, Ignores p (f s)) :
    Ignores p (get >>= f) := by
  intro s
  rw [run_bind_ok (run_get s), run_bind_ok (run_get (p s)), hp, hf]

end Ignores

/-! ## Two steps side by side -/

/-- From states that are related two steps come to the same outcome, and again to states that are
related. -/
def Alongside {σ' : Type} (r : σ → σ' → Prop) (x : Step ε σ α) (y : Step ε σ' α) : Prop :=
  ∀ ⦃s s'⦄, r s s' → (y.run s').1 = (x.run s).1 ∧ r (x.run s).2 (y.run s').2

/-- One step after another, side by side: the second steps are compared where the first ones succeed
alike. -/
theorem abreast_bind {σ' : Type} {r : σ → σ' → Prop} {x : Step ε σ α} {y : Step ε σ' α}
    {f : α → Step ε σ β} {g : α → Step ε σ' β} {s : σ} {s' : σ'}
    (hxy : Abreast r (x.run s) (y.run s'))
    (hfg : ∀ {a t t'}, x.run s = (.ok a, t) → r t t' → Abreast r ((f a).run t) ((g a).run t')) :
    Abreast r ((x >>= f).run s) ((y >>= g).run s') := by
  obtain ⟨houtcome, hstates⟩ := hxy
  rcases hx : x.run s with ⟨e | a, t⟩ <;> rcases hy : y.run s' with ⟨outcome, t'⟩ <;>
    rw [hx, hy] at houtcome hstates <;> dsimp only at houtcome hstates <;> subst houtcome
  · rw [run_bind_error hx, run_bind_error hy]
    exact ⟨rfl, hstates⟩
  · rw [run_bind_ok hx, run_bind_ok hy]
    exact hfg hx hstates

namespace Alongside

variable {σ' : Type} {r : σ → σ' → Prop}

theorem pure (a : α) : Alongside r (pure a : Step ε σ α) (pure a) := fun _ _ h => ⟨rfl, h⟩

theorem throw (e : ε) : Alongside r (throw e : Step ε σ α) (throw e) := fun _ _ h => ⟨rfl, h⟩

theorem modify {f : σ → σ} {f' : σ' → σ'} (hf : ∀ {s s'}, r s s' → r (f s) (f' s')) :
    Alongside r (modify f : Step ε σ Unit) (modify f') := fun _ _ h => ⟨rfl, hf h⟩

theorem bind {x : Step ε σ α} {y : Step ε σ' α} {f : α → Step ε σ β} {g : α → Step ε σ' β}
    (hxy : Alongside r x y) (hfg : ∀ a, Alongside r (f a) (g a)) :
    Alongside r (x >>= f) (y >>= g) := fun _ _ h =>
  abreast_bind (hxy h) fun _ h => hfg _ h

/-- Steps that look at their states go on alike if what they find there is alike. -/
theorem get_bind {f : σ → Step ε σ β} {g : σ' → Step ε σ' β}
    (hfg : ∀ {s s'}, r s s' → Alongside r (f s) (g s')) :
    Alongside r (get >>= f) (get >>= g) := fun s s' h => by
  rw [run_bind_ok (run_get s), run_bind_ok (run_get s')]
  exact hfg h h

end Alongside

end Step

end Folio
