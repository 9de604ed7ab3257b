/-!
# Association lists

What is looked up in a list of keys and values once an entry has been added to it or replaced in it.
-/

namespace Folio

variable {α β : Type} [BEq α] [LawfulBEq α] [DecidableEq α]

theorem lookup_cons_eq (a : α) (c : β) (es : List (α × β)) (k : α) :
    ((a, c) :: es).lookup k = if k = a then some c else es.lookup k := by
  rw [List.lookup_cons]
  by_cases h : k = a
  · simp [h]
  · rw [beq_false_of_ne h]
    simp [h]

/-- An entry under a new key is found behind the others. -/
theorem lookup_append_single (es : List (α × β)) (l k : α) (b : β) (h : es.lookup l = none) :
    (es ++ [(l, b)]).lookup k = if k = l then some b else es.lookup k := by
  induction es with
  | nil => simp [lookup_cons_eq]
  | cons e es ih =>
    obtain ⟨a, c⟩ := e
    rw [lookup_cons_eq] at h
    split at h
    · cases h
    · next hl =>
      rw [List.cons_append, lookup_cons_eq, lookup_cons_eq, ih h]
      grind

/-- A value that is replaced under its key is found there, if there was one. -/
theorem lookup_replace (es : List (α × β)) (l k : α) (b : β) :
    (es.map fun (a, old) => if a = l then (a, b) else (a, old)).lookup k =
      if k = l ∧ (es.lookup l).isSome then some b else es.lookup k := by
  induction es with
  | nil => simp
  | cons e es ih =>
    obtain ⟨a, c⟩ := e
    by_cases ha : a = l
    · simp only [List.map_cons, ha, ite_true, lookup_cons_eq, ih]
      grind
    · simp only [List.map_cons, ha, ite_false, lookup_cons_eq, ih]
      grind

end Folio
