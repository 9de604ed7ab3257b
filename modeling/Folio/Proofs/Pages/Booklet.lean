import Folio.Proofs.Pages.Decreasing
import Folio.Proofs.Pages.Descent

/-!
# Booklets

A sheet that is cut gives two neighbouring pages. `foldl_lastFirstMoves_leaves` says where the moves
put the pages of a list of sheets: the first half of the document holds one page of every sheet, in
the order of the sheets, and the second half the other pages in reverse. Which of the two pages
comes first changes from sheet to sheet.
-/

namespace Folio.Pages

variable {α : Type}

/-- The pages of a list of sheets. -/
def leaves (sheets : List (α × α)) : List α := sheets.flatMap fun x => [x.1, x.2]

/-- The page of a sheet that ends up in the first half of the document; sheets count from `0`. -/
def front (i : Nat) (x : α × α) : α := if i % 2 = 0 then x.2 else x.1

/-- The page of a sheet that ends up in the second half of the document. -/
def back (i : Nat) (x : α × α) : α := if i % 2 = 0 then x.1 else x.2

@[simp] theorem length_leaves (sheets : List (α × α)) :
    (leaves sheets).length = 2 * sheets.length := by
  induction sheets with
  | nil => rfl
  | cons x sheets ih =>
    have : leaves (x :: sheets) = x.1 :: x.2 :: leaves sheets := rfl
    rw [this, List.length_cons, List.length_cons, ih, List.length_cons]
    omega

/-- The pages of a sheet lie next to each other. -/
theorem getElem?_leaves : ∀ (sheets : List (α × α)) (j : Nat),
    (leaves sheets)[j]? = sheets[j / 2]?.map fun x => if j % 2 = 0 then x.1 else x.2
  | [], j => rfl
  | x :: sheets, 0 => rfl
  | x :: sheets, 1 => rfl
  | x :: sheets, j + 2 => by
    have hhalf : (j + 2) / 2 = j / 2 + 1 := by omega
    have hparity : (j + 2) % 2 = j % 2 := by omega
    rw [hhalf, hparity, List.getElem?_cons_succ, ← getElem?_leaves sheets j]
    rfl

/-- If exactly one of the two positions of every sheet is asked for, one page of every sheet is
found, in the order of the sheets. -/
theorem pagesAt_leaves (keep : Nat → Bool) (hkeep : ∀ i, keep (2 * i + 2) = !keep (2 * i + 1))
    (sheets : List (α × α)) (i : Nat) :
    pagesAt keep (2 * i + 1) (leaves sheets) =
      sheets.mapIdx fun j x => if keep (2 * (i + j) + 1) then x.1 else x.2 := by
  induction sheets generalizing i with
  | nil => rfl
  | cons x sheets ih =>
    have hnext : 2 * i + 1 + 1 + 1 = 2 * (i + 1) + 1 := by omega
    have hidx : (fun j (x : α × α) => if keep (2 * (i + (j + 1)) + 1) then x.1 else x.2) =
        fun j x => if keep (2 * (i + 1 + j) + 1) then x.1 else x.2 := by
      funext j x
      rw [show i + (j + 1) = i + 1 + j by omega]
    show pagesAt _ _ (x.1 :: x.2 :: leaves sheets) = _
    rw [pagesAt_cons, pagesAt_cons, hnext, ih, List.mapIdx_cons, hidx]
    cases h : keep (2 * i + 1) <;> simp [hkeep, h]

/-- The position of the first page of a sheet lies in the stride for every other sheet. -/
theorem inStride_first {i : Nat} : InStride 0 (2 * i + 1) ↔ i % 2 = 0 := by
  unfold InStride; omega

/-- Of the two positions of a sheet exactly one lies in the stride. -/
theorem inStride_second {i : Nat} : InStride 0 (2 * i + 2) ↔ ¬ InStride 0 (2 * i + 1) := by
  unfold InStride; omega

/-- **The moves undo a booklet.** The pages of all sheets, after the moves for their number. -/
theorem foldl_lastFirstMoves_leaves (sheets : List (α × α)) :
    (lastFirstMoves (2 * sheets.length)).foldl (fun pages p => moveToEnd (p - 1) pages)
        (leaves sheets) = sheets.mapIdx front ++ (sheets.mapIdx back).reverse := by
  have hmoved : ∀ i, IsMoved (2 * sheets.length) i ↔ InStride 0 i := by
    intro i
    rw [IsMoved, Nat.mul_mod_right]
  have hfront := pagesAt_leaves (fun p => !decide (InStride 0 p))
    (fun i => by simp [inStride_second]) sheets 0
  have hback := pagesAt_leaves (fun p => decide (InStride 0 p))
    (fun i => by simp [inStride_second]) sheets 0
  simp only [Nat.zero_add, inStride_first] at hfront hback
  rw [lastFirstMoves_eq, ← length_leaves, foldl_moveToEnd_filter, length_leaves]
  simp only [hmoved]
  congr 1
  · refine hfront.trans ?_
    congr 1
    funext i x
    by_cases h : i % 2 = 0 <;> simp [front, h]
  · refine congrArg List.reverse (hback.trans ?_)
    congr 1
    funext i x
    by_cases h : i % 2 = 0 <;> simp [back, h]

/-- The place of a page of the first half, and of its counterpart from the end. -/
theorem getElem?_mapIdx_append_reverse {β : Type} (f g : Nat → α → β) (l : List α) {k : Nat}
    (h₁ : 1 ≤ k) (h₂ : k ≤ l.length) :
    (l.mapIdx f ++ (l.mapIdx g).reverse)[k - 1]? = l[k - 1]?.map (f (k - 1)) ∧
      (l.mapIdx f ++ (l.mapIdx g).reverse)[2 * l.length - k]? = l[k - 1]?.map (g (k - 1)) := by
  constructor
  · rw [List.getElem?_append_left (by rw [List.length_mapIdx]; omega), List.getElem?_mapIdx]
  · rw [List.getElem?_append_right (by rw [List.length_mapIdx]; omega), List.length_mapIdx,
      List.getElem?_reverse (by rw [List.length_mapIdx]; omega), List.length_mapIdx,
      show l.length - 1 - (2 * l.length - k - l.length) = k - 1 by omega, List.getElem?_mapIdx]

end Folio.Pages
