import Folio.Pages.Count
import Folio.Pages.Moves

/-!
# The descent in closed form

`lastFirstMoves` goes down with strides that alternate between three and one, and where it starts
depends on the page count. `lastFirstMoves_eq` says which positions that gives: those of two
residues modulo four (`IsMoved`), from the highest to the lowest. For an even page count the
residues are `0` and `1`, for an odd one `1` and `2`. `lastFirstMoves_closedForm` adds how many they
are, that the last one is the first page, and that a `Walk` that goes on as long as it is above `0`
meets them and ends.
-/

namespace Folio.Pages

/-- The positions of two neighbouring residues modulo four, `r` and `r + 1`. -/
def InStride (r i : Nat) : Prop := i % 4 = r ∨ i % 4 = r + 1

instance (r i : Nat) : Decidable (InStride r i) := inferInstanceAs (Decidable (_ ∨ _))

/-- The positions up to `i` that lie in a stride, from the highest to the lowest. -/
def strideBelow (r i : Nat) : List Nat := ((List.range' 1 i).filter (InStride r ·)).reverse

@[simp] theorem strideBelow_zero (r : Nat) : strideBelow r 0 = [] := rfl

/-- A position of the stride comes in front of those below it. -/
theorem strideBelow_succ_of_inStride {r i : Nat} (h : InStride r (i + 1)) :
    strideBelow r (i + 1) = (i + 1) :: strideBelow r i := by
  simp [strideBelow, List.range'_concat, Nat.add_comm 1, h]

/-- A position outside of the stride is left out. -/
theorem strideBelow_succ_of_not_inStride {r i : Nat} (h : ¬ InStride r (i + 1)) :
    strideBelow r (i + 1) = strideBelow r i := by
  simp [strideBelow, List.range'_concat, Nat.add_comm 1, h]

/-- Of four positions two lie in a stride. The induction is on the position, one at a time. -/
theorem length_strideBelow {r : Nat} (hr : r ≤ 1) (i : Nat) :
    (strideBelow r i).length = (i + 3) / 4 + (i + 2 * r) / 4 := by
  have hcases : r = 0 ∨ r = 1 := by omega
  induction i with
  | zero => rcases hcases with rfl | rfl <;> rfl
  | succ i ih =>
    by_cases h : InStride r (i + 1)
    · rw [strideBelow_succ_of_inStride h, List.length_cons, ih]
      unfold InStride at h
      rcases hcases with rfl | rfl <;> omega
    · rw [strideBelow_succ_of_not_inStride h, ih]
      unfold InStride at h
      rcases hcases with rfl | rfl <;> omega

/-- The lowest position of a stride is the first one. -/
theorem getLast?_strideBelow {r : Nat} (hr : r ≤ 1) (i : Nat) :
    (strideBelow r (i + 1)).getLast? = some 1 := by
  have hfirst : InStride r 1 := by unfold InStride; omega
  rw [strideBelow, List.getLast?_reverse, List.range'_succ,
    List.filter_cons_of_pos (by simpa using hfirst), List.head?_cons]

/-- The residue at which a stride is taken: a stride of three leaves from the lower residue of the
two, a stride of one from the higher. -/
def Stride.phase (r : Nat) : Stride → Nat
  | .three => r
  | .one => r + 1

/-- **The descent meets exactly the positions of its two residues.** The induction is on the
descent; what carries it is that position and stride are in phase, so that each stride lands on the
other residue and the positions it jumps over have neither. -/
theorem descend_eq {r : Nat} (hr : r ≤ 1) (i : Nat) (s : Stride) (h : i % 4 = s.phase r) :
    descend i s = strideBelow r i := by
  fun_induction descend i s with
  | case1 s => rfl
  | case2 i ih =>
    have hi : (i + 1) % 4 = r + 1 := h
    rw [strideBelow_succ_of_inStride (.inr hi), ih (show i % 4 = r by omega)]
  | case3 =>
    have hi : 1 % 4 = r := h
    rw [strideBelow_succ_of_inStride (.inl hi), strideBelow_zero]
  | case4 =>
    -- the residue `2` is no lower residue
    have hi : 2 % 4 = r := h
    omega
  | case5 i ih =>
    have hi : (i + 3) % 4 = r := h
    have h₁ : ¬ InStride r (i + 1) := by unfold InStride; omega
    have h₂ : ¬ InStride r (i + 2) := by unfold InStride; omega
    rw [strideBelow_succ_of_inStride (.inl hi), strideBelow_succ_of_not_inStride h₂,
      strideBelow_succ_of_not_inStride h₁, ih (show i % 4 = r + 1 by omega)]

/-- The positions that are moved in a document of `count` pages. -/
def IsMoved (count i : Nat) : Prop := InStride (count % 2) i

instance (count i : Nat) : Decidable (IsMoved count i) := inferInstanceAs (Decidable (InStride _ _))

/-- With an odd number of double pages the descent starts one page below the last, which has neither
residue. -/
theorem lastFirstMoves_eq_strideBelow (count : Nat) :
    lastFirstMoves count = strideBelow (count % 2) count := by
  unfold lastFirstMoves
  split
  · next h => exact descend_eq (by omega) count .three (show count % 4 = count % 2 by omega)
  · next h =>
    obtain ⟨i, rfl⟩ : ∃ i, count = i + 1 := ⟨count - 1, by omega⟩
    have hlast : ¬ InStride ((i + 1) % 2) (i + 1) := by unfold InStride; omega
    rw [strideBelow_succ_of_not_inStride hlast, Nat.add_sub_cancel]
    exact descend_eq (by omega) i .one (show i % 4 = (i + 1) % 2 + 1 by omega)

/-- The moves in closed form. -/
theorem lastFirstMoves_eq (count : Nat) :
    lastFirstMoves count = ((List.range' 1 count).filter (IsMoved count ·)).reverse :=
  lastFirstMoves_eq_strideBelow count

/-- A position is moved if it is one of the document and has one of the two residues. -/
theorem mem_lastFirstMoves {count i : Nat} :
    i ∈ lastFirstMoves count ↔ (1 ≤ i ∧ i ≤ count) ∧ IsMoved count i := by
  simp only [lastFirstMoves_eq, List.mem_reverse, List.mem_filter, List.mem_range'_1,
    decide_eq_true_eq]
  refine and_congr_left fun _ => ?_
  omega

/-- The moves go down. -/
theorem lastFirstMoves_pairwise (count : Nat) : (lastFirstMoves count).Pairwise (· > ·) := by
  rw [lastFirstMoves_eq, List.pairwise_reverse]
  exact List.Pairwise.filter _ List.pairwise_lt_range'

/-- Half of the positions are moved, rounded up. -/
theorem length_lastFirstMoves (count : Nat) : (lastFirstMoves count).length = (count + 1) / 2 := by
  rw [lastFirstMoves_eq_strideBelow, length_strideBelow (by omega)]
  rcases Nat.mod_two_eq_zero_or_one count with h | h <;> rw [h] <;> omega

/-- The last move is that of the first page. -/
theorem getLast?_lastFirstMoves (count : Nat) :
    (lastFirstMoves count).getLast? = if count = 0 then none else some 1 := by
  rw [lastFirstMoves_eq_strideBelow]
  cases count with
  | zero => rfl
  | succ count => exact getLast?_strideBelow (by omega) count

/-! ## The descent as a walk -/

/-- How far down a stride leads. -/
def Stride.length : Stride → Int
  | .one => 1
  | .three => 3

/-- The stride that follows a stride. -/
def Stride.next : Stride → Stride
  | .one => .three
  | .three => .one

/-- A place on the way down, which may lie below the first page, and the stride that leads on. -/
structure Walk where
  position : Int
  stride : Stride

namespace Walk

/-- Where the way down begins in a document of `count` pages: at the last page with a stride of
three, or one page earlier with a stride of one if the number of double pages is odd. -/
def start (count : Nat) : Walk where
  position := count - (count / 2 % 2 : Nat)
  stride := if count / 2 % 2 = 0 then .three else .one

/-- One stride further down. -/
def next (w : Walk) : Walk := ⟨w.position - w.stride.length, w.stride.next⟩

/-- A walk meets positions, one with each stride, until it has left the document. -/
inductive Meets : Walk → List Int → Prop where
  | gone {w : Walk} (h : w.position ≤ 0) : w.Meets []
  | step {w : Walk} {ps : List Int} (h : 0 < w.position) (hnext : w.next.Meets ps) :
      w.Meets (w.position :: ps)

/-- A walk has one course. -/
theorem Meets.unique {w : Walk} {ps qs : List Int} (h : w.Meets ps) (h' : w.Meets qs) :
    ps = qs := by
  induction h generalizing qs with
  | gone hgone =>
    cases h' with
    | gone => rfl
    | step hpos => exact absurd hgone (Int.not_le.2 hpos)
  | step hpos _ ih =>
    cases h' with
    | gone hgone => exact absurd hgone (Int.not_le.2 hpos)
    | step _ hnext => rw [ih hnext]

/-- The descent is a walk that ends. A stride of three from one of the two lowest positions leads
out of the document. -/
theorem meets_descend (i : Nat) (s : Stride) :
    (⟨i, s⟩ : Walk).Meets ((descend i s).map Nat.cast) := by
  fun_induction descend i s with
  | case1 s => exact .gone (Int.le_refl 0)
  | case2 i ih =>
    have hnext : next ⟨(i + 1 : Nat), .one⟩ = ⟨i, .three⟩ := by
      simp [next, Stride.length, Stride.next]
    exact .step (Int.natCast_pos.2 (Nat.succ_pos _)) (hnext ▸ ih)
  | case3 => exact .step (by decide) (.gone (by decide))
  | case4 => exact .step (by decide) (.gone (by decide))
  | case5 i ih =>
    have hnext : next ⟨(i + 3 : Nat), .three⟩ = ⟨i, .one⟩ := by
      simp [next, Stride.length, Stride.next]
    exact .step (Int.natCast_pos.2 (Nat.succ_pos _)) (hnext ▸ ih)

theorem meets_start (count : Nat) :
    (start count).Meets ((lastFirstMoves count).map Nat.cast) := by
  unfold lastFirstMoves
  split
  · next h =>
    have hstart : start count = ⟨count, .three⟩ := by simp [start, h]
    exact hstart ▸ meets_descend count .three
  · next h =>
    have hone : count / 2 % 2 = 1 := by omega
    have hstart : start count = ⟨(count - 1 : Nat), .one⟩ := by
      rw [start, hone, Int.natCast_sub (by omega)]
      rfl
    exact hstart ▸ meets_descend (count - 1) .one

end Walk

/-- **The moves in closed form.** For every page count the way down comes to an end, and the
positions it has met are the moves. They decrease, and are just the positions of the document with
residue `0` or `1` modulo four if the count is even, and with residue `1` or `2` if it is odd. So
they are half of the positions, rounded up, and end with the first page. -/
theorem lastFirstMoves_closedForm (count : Nat) :
    movesFor count = .ok (lastFirstMoves count) ∧
      (∀ ps, (Walk.start count).Meets ps ↔ ps = (lastFirstMoves count).map Nat.cast) ∧
      (lastFirstMoves count).Pairwise (· > ·) ∧
      (∀ i, i ∈ lastFirstMoves count ↔
        (1 ≤ i ∧ i ≤ count) ∧ i % 4 ∈ if count % 2 = 0 then [0, 1] else [1, 2]) ∧
      (lastFirstMoves count).length = (count + 1) / 2 ∧
      (lastFirstMoves count).getLast? = if count = 0 then none else some 1 := by
  refine ⟨?_, fun ps => ⟨fun h => h.unique (Walk.meets_start count), ?_⟩,
    lastFirstMoves_pairwise count, fun i => ?_, length_lastFirstMoves count,
    getLast?_lastFirstMoves count⟩
  · have hcount : ¬ (count : Int) < 0 := by omega
    rw [movesFor, Pages.count, if_neg hcount]
    rfl
  · rintro rfl
    exact Walk.meets_start count
  · rw [mem_lastFirstMoves]
    refine and_congr_right fun _ => ?_
    rcases Nat.mod_two_eq_zero_or_one count with h | h <;> simp [IsMoved, InStride, h]

end Folio.Pages
