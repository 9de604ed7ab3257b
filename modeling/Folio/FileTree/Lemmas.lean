import Folio.FileTree.Basic
import Folio.Lookup

/-!
# Entries after a change

What is found at a location after the basic changes of a file tree, in terms of what was found
there before: `get?_put` and `get?_erase` for changes at one location, `get?_relocate` for an entry
that is carried over to another one. Other modules use these and do not look into the list of
entries.
-/

namespace Folio.FileTree

/-! ## Association lists -/

section
variable {β : Type}

/-- The keys of a branch `a` of one key are carried over to `b`, which no key lies in. -/
private theorem lookup_redirect {a b : Location} (es : List (Location × β)) (k : Location)
    (hbelow : ∀ x, a.isPrefixOf x → x ≠ a → es.lookup x = none)
    (hfree : ∀ x, b.isPrefixOf x → es.lookup x = none) :
    (es.map fun (x, e) => (redirect a b x, e)).lookup k =
      if k = b then es.lookup a else if k = a then none else es.lookup k := by
  induction es with
  | nil => simp
  | cons e es ih =>
    obtain ⟨x, c⟩ := e
    have hxb : ¬ b.isPrefixOf x := fun h => by simpa [lookup_cons_eq] using hfree x h
    have hne : x ≠ b := fun h => hxb (h ▸ List.isPrefixOf_iff_prefix.2 (List.prefix_refl _))
    have ih := ih
      (fun y h₁ h₂ => by
        have := hbelow y h₁ h₂
        rw [lookup_cons_eq] at this
        split at this
        · cases this
        · exact this)
      (fun y h => by
        have := hfree y h
        rw [lookup_cons_eq] at this
        split at this
        · cases this
        · exact this)
    simp only [List.map_cons, lookup_cons_eq, ih]
    by_cases hxa : x = a
    · subst hxa
      have hr : redirect x b x = b := by
        simp [redirect, List.isPrefixOf_iff_prefix]
      grind
    · have hpre : ¬ a.isPrefixOf x := fun h => by
        simpa [lookup_cons_eq] using hbelow x h hxa
      have hr : redirect a b x = x := by simp [redirect, hpre]
      grind

private theorem lookup_filter (es : List (Location × β)) (p : Location → Bool) (k : Location) :
    (es.filter fun (a, _) => p a).lookup k = if p k then es.lookup k else none := by
  induction es with
  | nil => simp
  | cons e es ih =>
    obtain ⟨a, c⟩ := e
    by_cases hp : p a = true
    · rw [List.filter_cons_of_pos (by simpa using hp), lookup_cons_eq, lookup_cons_eq, ih]
      grind
    · rw [List.filter_cons_of_neg (by simpa using hp), lookup_cons_eq, ih]
      grind

/-- What is listed at a location is looked up there, if nothing else is. -/
theorem lookup_of_mem {es : List (Location × β)} {x : Location × β}
    (hnodup : (es.map Prod.fst).Nodup) (hx : x ∈ es) : es.lookup x.1 = some x.2 := by
  obtain ⟨l₁, l₂, hsplit⟩ := List.append_of_mem hx
  refine List.lookup_eq_some_iff.2 ⟨l₁, l₂, hsplit, fun y hy => ?_⟩
  rw [hsplit, List.map_append, List.nodup_append] at hnodup
  simpa using Ne.symm (hnodup.2.2 y.1 (List.mem_map_of_mem hy) x.1 List.mem_cons_self)

end

/-! ## Entries -/

/-- The root is a directory in every tree. -/
@[simp] theorem get?_root (t : FileTree) : t.get? [] = some .directory := by simp [get?]

/-- After an entry is put at a location it is found there, and nothing else changes. -/
theorem get?_put (t : FileTree) {l : Location} (hl : l ≠ []) (e : Entry) (k : Location) :
    (t.put l e).get? k = if k = l then some e else t.get? k := by
  by_cases hk : k = []
  · simp [get?, hk, Ne.symm hl]
  · by_cases hs : (t.entries.lookup l).isSome = true
    · simp [get?, put, hk, hs, lookup_replace]
    · have hn : t.entries.lookup l = none := Option.not_isSome_iff_eq_none.1 hs
      simp [get?, put, hk, hn, lookup_append_single _ _ _ _ hn]

/-- After an entry is erased there is nothing at its location, and nothing else changes. -/
theorem get?_erase (t : FileTree) {l : Location} (hl : l ≠ []) (k : Location) :
    (t.erase l).get? k = if k = l then none else t.get? k := by
  have h := lookup_filter t.entries (fun a => decide (a ≠ l)) k
  by_cases hk : k = []
  · simp [get?, hk, Ne.symm hl]
  · by_cases hkl : k = l
    · subst hkl
      simpa [get?, erase, hk] using h
    · simpa [get?, erase, hk, hkl] using h

/-- After an entry without others below it is carried over to a free location it is found there and
nowhere else, and nothing else changes. -/
theorem get?_relocate (t : FileTree) {a b : Location} (ha : a ≠ []) (hb : b ≠ [])
    (hbelow : ∀ k, a.isPrefixOf k → k ≠ a → t.get? k = none)
    (hfree : ∀ k, b.isPrefixOf k → t.get? k = none) (k : Location) :
    (t.relocate a b).get? k =
      if k = b then t.get? a else if k = a then none else t.get? k := by
  have hnil : ∀ {l : Location}, l ≠ [] → ∀ {x : Location}, l.isPrefixOf x → x ≠ [] := by
    rintro l hl x hx rfl
    exact hl (List.prefix_nil.1 (List.isPrefixOf_iff_prefix.1 hx))
  by_cases hk : k = []
  · simp [hk, Ne.symm ha, Ne.symm hb]
  · have h := lookup_redirect (a := a) (b := b) t.entries k
      (fun x h₁ h₂ => by simpa [get?, hnil ha h₁] using hbelow x h₁ h₂)
      (fun x h₁ => by simpa [get?, hnil hb h₁] using hfree x h₁)
    simpa [get?, relocate, hk, ha] using h

/-- No change of the entries moves the place that relative paths start from. -/
@[simp] theorem cwd_put (t : FileTree) (l : Location) (e : Entry) : (t.put l e).cwd = t.cwd := by
  unfold put; split <;> rfl

@[simp] theorem cwd_erase (t : FileTree) (l : Location) : (t.erase l).cwd = t.cwd := rfl

@[simp] theorem cwd_relocate (t : FileTree) (a b : Location) : (t.relocate a b).cwd = t.cwd := rfl

end Folio.FileTree
