import Mathlib.Algebra.Group.Int.Defs
import Folio.Pages.Moves
import Folio.Proofs.Effects

/-!
# Any positions

A position may be any integer. In a list those from `1` on count from the front and those from `0`
downwards from the end, so that there is a page at a position just if it lies `Within` the length of
the list. A move keeps the length: whether moves succeed does not depend on the moves before them
(`exists_applyMoves_iff`), and the first position without a page ends them
(`applyMoves_of_not_within`).
-/

namespace Folio.Pages

variable {α : Type} {moves : List Int} {pages r : List α} {p : Int}

/-- Is there a page at a position, in a list of `length` pages? -/
def Within (length : Nat) (p : Int) : Prop := 1 - (length : Int) ≤ p ∧ p ≤ length

instance (length : Nat) (p : Int) : Decidable (Within length p) :=
  inferInstanceAs (Decidable (_ ∧ _))

/-! ## One position -/

theorem isIndex_iff {i : Int} : isIndex i = true ↔ -2 ^ 63 ≤ i ∧ i < 2 ^ 63 := by
  simp only [isIndex, Bool.and_eq_true, decide_eq_true_eq]
  omega

theorem isSome_place?_iff {length : Nat} : (place? length p).isSome ↔ Within length p := by
  unfold place? Within
  dsimp only
  split <;> split <;> simp <;> omega

/-- A position that counts from the end is that of the same page counted from the front. -/
theorem place?_add_length {length : Nat} (hp : p ≤ 0) (h : Within length p) :
    place? length (p + length) = place? length p := by
  have hfront : ¬ p + length ≤ 0 := by
    have := h.1
    omega
  have hsame : p + length - 1 = p - 1 + length := by omega
  simp only [place?, if_pos hp, if_neg hfront, hsame]

theorem exists_move_iff : (∃ r, move p pages = .ok r) ↔ Within pages.length p := by
  rw [← isSome_place?_iff, move]
  cases place? pages.length p <;> simp

/-- The same page is moved from either end. -/
theorem move_add_length (hp : p ≤ 0) (h : Within pages.length p) :
    move (p + pages.length) pages = move p pages := by
  obtain ⟨i, hi⟩ := Option.isSome_iff_exists.1 (isSome_place?_iff.2 h)
  rw [move, move, place?_add_length hp h, hi]

theorem perm_of_move (h : move p pages = .ok r) : r.Perm pages := by
  unfold move at h
  split at h
  · cases h
    exact perm_moveToEnd _ _
  · cases h

/-- A position that is refused is refused as an index, unless it cannot be one. -/
theorem move_of_not_within (h : ¬ Within pages.length p) :
    ∃ f, move p pages = .error f ∧ (f = .unusable ↔ ¬ (-2 ^ 63 ≤ p - 1 ∧ p - 1 < 2 ^ 63)) := by
  have hnone : place? pages.length p = none := by
    rwa [← isSome_place?_iff, Option.not_isSome_iff_eq_none] at h
  refine ⟨_, by rw [move, hnone], ?_⟩
  rw [← isIndex_iff]
  cases isIndex (p - 1)
  · simp
  · cases pages.isEmpty <;> simp

/-! ## One position after the other -/

theorem applyMoves_append (front back : List Int) (pages : List α) :
    applyMoves (front ++ back) pages = (applyMoves front pages >>= applyMoves back) := by
  induction front generalizing pages with
  | nil => rfl
  | cons p front ih =>
    rw [List.cons_append, applyMoves, applyMoves]
    cases move p pages with
    | error f => rfl
    | ok next => exact ih next

/-- Moves neither add nor lose a page. -/
theorem perm_of_applyMoves (h : applyMoves moves pages = .ok r) : r.Perm pages := by
  induction moves generalizing pages with
  | nil =>
    cases h
    exact .refl _
  | cons p moves ih =>
    obtain ⟨next, hmove, hrest⟩ := ok_of_bind h
    exact (ih hrest).trans (perm_of_move hmove)

/-- **Moves succeed just if there is a page at each position.** The induction is on the moves; as
the next list has the same length, it has pages at the same positions. -/
theorem exists_applyMoves_iff :
    (∃ r, applyMoves moves pages = .ok r) ↔ ∀ p ∈ moves, Within pages.length p := by
  induction moves generalizing pages with
  | nil => simp [applyMoves]
  | cons p moves ih =>
    rw [List.forall_mem_cons]
    constructor
    · rintro ⟨r, h⟩
      obtain ⟨next, hmove, hrest⟩ := ok_of_bind h
      have hlength := (perm_of_move hmove).length_eq
      exact ⟨exists_move_iff.1 ⟨next, hmove⟩, hlength ▸ ih.1 ⟨r, hrest⟩⟩
    · rintro ⟨hp, hmoves⟩
      obtain ⟨next, hmove⟩ := exists_move_iff.2 hp
      have hlength := (perm_of_move hmove).length_eq
      obtain ⟨r, hrest⟩ := ih.2 (hlength.symm ▸ hmoves)
      exact ⟨r, by rw [applyMoves, hmove, ok_bind, hrest]⟩

/-- Positions are refused as they are by the list that the positions before them leave. -/
theorem applyMoves_append_cons {front : List Int} {next : List α}
    (h : applyMoves front pages = .ok next) (p : Int) (back : List Int) :
    applyMoves (front ++ p :: back) pages = (move p next >>= applyMoves back) := by
  rw [applyMoves_append, h, ok_bind, applyMoves]

/-- **The first position without a page** ends the moves. -/
theorem applyMoves_of_not_within {front back : List Int}
    (hfront : ∀ q ∈ front, Within pages.length q) (hp : ¬ Within pages.length p) :
    ∃ f, applyMoves (front ++ p :: back) pages = .error f ∧
      (f = .unusable ↔ ¬ (-2 ^ 63 ≤ p - 1 ∧ p - 1 < 2 ^ 63)) := by
  obtain ⟨next, hnext⟩ := exists_applyMoves_iff.2 hfront
  rw [← (perm_of_applyMoves hnext).length_eq] at hp
  obtain ⟨f, hmove, hf⟩ := move_of_not_within hp
  refine ⟨f, ?_, hf⟩
  rw [applyMoves_append_cons hnext, hmove]
  rfl

/-- A position that counts from the end may be replaced by the one from the front. -/
theorem applyMoves_add_length {front back : List Int} (hp : p ≤ 0) (h : Within pages.length p) :
    applyMoves (front ++ (p + pages.length) :: back) pages =
      applyMoves (front ++ p :: back) pages := by
  rw [applyMoves_append, applyMoves_append]
  cases hfront : applyMoves front pages with
  | error f => rfl
  | ok next =>
    have hlength := (perm_of_applyMoves hfront).length_eq
    have hmove : move (p + pages.length) next = move p next := by
      rw [← hlength] at h ⊢
      exact move_add_length hp h
    rw [ok_bind, ok_bind, applyMoves, applyMoves, hmove]

end Folio.Pages
