/-!
# Moving pages to the end

A document scanned from its last sheet is put into reading order by moving pages to the end of
the document, one position after the other. `lastFirstMoves` lists the positions, `applyMoves`
replays any list of them, and `lastFirstOrder` is the resulting order of the pages.
-/

namespace Folio.Pages

/-- The distance to the next position of the descent. -/
inductive Stride where
  | one
  | three
  deriving DecidableEq, Repr

/-- The positions met when going down to `1`, with strides that alternate between one and
three; `descend i s` starts at `i` and takes the stride `s` first. -/
def descend : Nat → Stride → List Nat
  | 0, _ => []
  | i + 1, .one => (i + 1) :: descend i .three
  | 1, .three => [1]
  | 2, .three => [2]
  | i + 3, .three => (i + 3) :: descend i .one

/-- The positions (from `1`) that put a document of `count` pages into reading order, in the order
in which they are moved. With an even number of double pages the descent starts at the last page
with a stride of three, otherwise one page earlier with a stride of one. -/
def lastFirstMoves (count : Nat) : List Nat :=
  if count / 2 % 2 = 0 then descend count .three else descend (count - 1) .one

/-- Why a page cannot be moved. -/
inductive MoveFault where
  | noPages
  | outOfRange
  /-- The position is none in a list of any length. -/
  | unusable
  deriving DecidableEq, Repr

/-- The place of position `p` in a list of `length` items: `1` is the first one, and positions
from `0` downwards count from the end. -/
def place? (length : Nat) (p : Int) : Option Nat :=
  let i := if p ≤ 0 then p - 1 + length else p - 1
  if 0 ≤ i ∧ i < length then some i.toNat else none

/-- Is this an index that lists can be asked about? Those are the words of 64 bits with a sign. -/
def isIndex (i : Int) : Bool :=
  decide (-9223372036854775808 ≤ i) && decide (i ≤ 9223372036854775807)

/-- The list with its item at place `i` moved to the end. -/
def moveToEnd {α : Type} (i : Nat) (pages : List α) : List α :=
  pages.eraseIdx i ++ pages[i]?.toList

/-- Moving an item neither adds nor loses one. -/
theorem perm_moveToEnd {α : Type} (i : Nat) (pages : List α) : (moveToEnd i pages).Perm pages := by
  unfold moveToEnd
  cases h : pages[i]? with
  | none => simp [List.eraseIdx_of_length_le (List.getElem?_eq_none_iff.1 h)]
  | some a =>
    obtain ⟨hi, rfl⟩ := List.getElem?_eq_some_iff.1 h
    have split : pages = pages.take i ++ pages[i] :: pages.drop (i + 1) := by
      rw [← List.drop_eq_getElem_cons hi, List.take_append_drop]
    rw [List.eraseIdx_eq_take_drop_succ, List.append_assoc]
    conv => rhs; rw [split]
    exact List.Perm.append_left _ List.perm_append_comm

@[simp] theorem length_moveToEnd {α : Type} (i : Nat) (pages : List α) :
    (moveToEnd i pages).length = pages.length := (perm_moveToEnd i pages).length_eq

/-- Nor do any moves, one after the other. -/
theorem perm_foldl_moveToEnd {α : Type} (moves : List Nat) (pages : List α) :
    (moves.foldl (fun pages p => moveToEnd (p - 1) pages) pages).Perm pages := by
  induction moves generalizing pages with
  | nil => exact .refl _
  | cons p moves ih => exact (ih _).trans (perm_moveToEnd _ _)

/-- Moves the page at position `p` to the end. -/
def move {α : Type} (p : Int) (pages : List α) : Except MoveFault (List α) :=
  match place? pages.length p with
  | some i => .ok (moveToEnd i pages)
  | none =>
    .error (if !isIndex (p - 1) then .unusable else if pages.isEmpty then .noPages else .outOfRange)

/-- The page at a position that exists is moved. -/
theorem move_eq_ok {α : Type} {p : Nat} {pages : List α} (h₁ : 1 ≤ p) (h₂ : p ≤ pages.length) :
    move p pages = .ok (moveToEnd (p - 1) pages) := by
  have hplace : place? pages.length p = some (p - 1) := by
    have hpositive : ¬ (p : Int) ≤ 0 := by omega
    have hin : (0 : Int) ≤ (p : Int) - 1 ∧ (p : Int) - 1 < pages.length := by omega
    have hindex : ((p : Int) - 1).toNat = p - 1 := by omega
    simp only [place?, if_neg hpositive, if_pos hin, hindex]
  rw [move, hplace]

/-- Moves one position after the other. -/
def applyMoves {α : Type} : List Int → List α → Except MoveFault (List α)
  | [], pages => .ok pages
  | p :: ps, pages => move p pages >>= applyMoves ps

/-- Positions that all exist are moved as they are in a document. -/
theorem applyMoves_eq_ok {α : Type} : ∀ {moves : List Nat} {pages : List α},
    (∀ p ∈ moves, 1 ≤ p ∧ p ≤ pages.length) →
      applyMoves (moves.map Nat.cast) pages =
        .ok (moves.foldl (fun pages p => moveToEnd (p - 1) pages) pages)
  | [], _, _ => rfl
  | p :: moves, pages, h => by
    obtain ⟨⟨h₁, h₂⟩, hmoves⟩ := List.forall_mem_cons.1 h
    rw [List.map_cons, applyMoves, move_eq_ok h₁ h₂]
    refine applyMoves_eq_ok fun q hq => ?_
    rw [length_moveToEnd]
    exact hmoves q hq

/-- The page numbers `1` to `count` in the order that `lastFirstMoves` leaves. -/
def lastFirstOrder (count : Nat) : List Nat :=
  (lastFirstMoves count).foldl (fun pages p => moveToEnd (p - 1) pages) (List.range' 1 count)

end Folio.Pages
