import Mathlib.Data.List.Basic
import Folio.Pages.Moves

/-!
# Decreasing moves

Positions that are moved to the end in decreasing order still refer to the pages as they lay before
the first move: a move shifts only what lies behind its position. So a replay of decreasing moves
leaves the pages that are not moved, in their order, followed by the moved ones in the order of the
moves (`foldl_moveToEnd_eq`). `applyMoves_of_decreasing` says so of any positions in a list, and of
each single move that it takes the page that was there at first.
-/

namespace Folio.Pages

variable {α : Type}

/-- The pages at positions that satisfy `keep`, where the first page has position `start`. -/
def pagesAt (keep : Nat → Bool) (start : Nat) (pages : List α) : List α :=
  ((pages.zipIdx start).filter fun x => keep x.2).map Prod.fst

@[simp] theorem pagesAt_nil (keep : Nat → Bool) (start : Nat) :
    pagesAt keep start ([] : List α) = [] := rfl

theorem pagesAt_cons (keep : Nat → Bool) (start : Nat) (a : α) (pages : List α) :
    pagesAt keep start (a :: pages) =
      if keep start then a :: pagesAt keep (start + 1) pages
      else pagesAt keep (start + 1) pages := by
  by_cases h : keep start <;> simp [pagesAt, List.zipIdx_cons, h]

theorem pagesAt_append (keep : Nat → Bool) (start : Nat) (front back : List α) :
    pagesAt keep start (front ++ back) =
      pagesAt keep start front ++ pagesAt keep (start + front.length) back := by
  simp [pagesAt, List.zipIdx_append]

/-- Only the positions that pages have matter. -/
theorem pagesAt_congr {keep keep' : Nat → Bool} {start : Nat} {pages : List α}
    (h : ∀ i, start ≤ i → i < start + pages.length → keep i = keep' i) :
    pagesAt keep start pages = pagesAt keep' start pages := by
  unfold pagesAt
  congr 1
  refine List.filter_congr fun x hx => ?_
  obtain ⟨h₁, h₂, -⟩ := List.mem_zipIdx hx
  exact h x.2 h₁ (by omega)

/-- All pages are there if every position is kept. -/
theorem pagesAt_eq_self {keep : Nat → Bool} {start : Nat} {pages : List α}
    (h : ∀ i, start ≤ i → i < start + pages.length → keep i = true) :
    pagesAt keep start pages = pages := by
  induction pages generalizing start with
  | nil => rfl
  | cons a pages ih =>
    rw [pagesAt_cons, if_pos (h start (Nat.le_refl _) (by simp)), ih]
    intro i h₁ h₂
    exact h i (by omega) (by simp only [List.length_cons]; omega)

/-- The pages that a list of positions does not move. -/
def unmoved (moves : List Nat) (pages : List α) : List α := pagesAt (· ∉ moves) 1 pages

/-- The pages that a list of positions moves, in the order of the moves. -/
def moved (moves : List Nat) (pages : List α) : List α := moves.filterMap fun p => pages[p - 1]?

/-- One move, seen from a list of pages whose front part holds the position. -/
theorem moveToEnd_append {front rest : List α} {p : Nat} (h₁ : 1 ≤ p) (h₂ : p ≤ front.length) :
    moveToEnd (p - 1) (front ++ rest) =
      front.take (p - 1) ++ (front.drop p ++ rest ++ front[p - 1]?.toList) := by
  have hlt : p - 1 < front.length := by omega
  have hp : p - 1 + 1 = p := by omega
  rw [moveToEnd, List.getElem?_append_left hlt, List.eraseIdx_append_of_lt_length hlt,
    List.eraseIdx_eq_take_drop_succ, hp]
  simp only [List.append_assoc]

/-- The first of a list of decreasing moves cuts off what lies behind it: the later moves do not
touch that part. -/
theorem unmoved_cons {p : Nat} {ps : List Nat} {pages : List α} (h₁ : 1 ≤ p)
    (h₂ : p ≤ pages.length) (hps : ∀ q ∈ ps, q < p) :
    unmoved (p :: ps) pages = unmoved ps (pages.take (p - 1)) ++ pages.drop p := by
  have hlen : (pages.take (p - 1)).length = p - 1 := by rw [List.length_take]; omega
  have hcut : pages = pages.take (p - 1) ++ pages[p - 1] :: pages.drop p := by
    have hd := List.drop_eq_getElem_cons (l := pages) (i := p - 1) (by omega)
    rw [show p - 1 + 1 = p by omega] at hd
    rw [← hd, List.take_append_drop]
  unfold unmoved
  conv => lhs; rw [hcut]
  rw [pagesAt_append, pagesAt_cons, if_neg (by simp; omega), hlen]
  congr 1
  · refine pagesAt_congr fun i _ hi => ?_
    rw [hlen] at hi
    simp only [List.mem_cons, decide_eq_decide]
    exact not_congr (or_iff_right (by omega))
  · refine pagesAt_eq_self fun i hi _ => ?_
    simp only [List.mem_cons, decide_eq_true_eq, not_or]
    exact ⟨by omega, fun hmem => absurd (hps i hmem) (by omega)⟩

/-- The pages of later moves lie in front of an earlier, higher one. -/
theorem moved_take {p : Nat} {ps : List Nat} {pages : List α} (hpos : ∀ q ∈ ps, 1 ≤ q)
    (hps : ∀ q ∈ ps, q < p) : moved ps (pages.take (p - 1)) = moved ps pages := by
  refine List.filterMap_congr fun q hq => ?_
  have h₁ := hpos q hq
  have h₂ := hps q hq
  exact List.getElem?_take_of_lt (by omega)

/-- The replay of decreasing moves on a list whose front part holds all their positions. The
induction is on the moves: after each one the front part ends right before its position, which is
where the positions of all later moves lie. -/
theorem foldl_moveToEnd_append :
    ∀ (moves : List Nat) (front rest : List α), moves.Pairwise (· > ·) →
      (∀ p ∈ moves, 1 ≤ p ∧ p ≤ front.length) →
      moves.foldl (fun pages p => moveToEnd (p - 1) pages) (front ++ rest) =
        unmoved moves front ++ rest ++ moved moves front
  | [], front, rest, _, _ => by
    have h : unmoved [] front = front := pagesAt_eq_self (by simp)
    simp [moved, h]
  | p :: ps, front, rest, hdec, hmem => by
    obtain ⟨h₁, h₂⟩ := hmem p List.mem_cons_self
    obtain ⟨hlt, hdec⟩ := List.pairwise_cons.1 hdec
    have hpos : ∀ q ∈ ps, 1 ≤ q := fun q hq => (hmem q (List.mem_cons_of_mem _ hq)).1
    have hfront : ∀ q ∈ ps, 1 ≤ q ∧ q ≤ (front.take (p - 1)).length := by
      intro q hq
      have := hlt q hq
      rw [List.length_take]
      exact ⟨hpos q hq, by omega⟩
    have hmoved : moved (p :: ps) front = front[p - 1]?.toList ++ moved ps front := by
      rw [List.getElem?_eq_getElem (by omega : p - 1 < front.length)]
      simp [moved, List.getElem?_eq_getElem (by omega : p - 1 < front.length)]
    rw [List.foldl_cons, moveToEnd_append h₁ h₂, foldl_moveToEnd_append ps _ _ hdec hfront,
      unmoved_cons h₁ h₂ hlt, moved_take hpos hlt, hmoved]
    simp only [List.append_assoc]

/-- **Decreasing moves refer to original positions.** What is not moved keeps its order, and the
moved pages follow in the order of the moves. -/
theorem foldl_moveToEnd_eq {moves : List Nat} {pages : List α} (hdec : moves.Pairwise (· > ·))
    (hmem : ∀ p ∈ moves, 1 ≤ p ∧ p ≤ pages.length) :
    moves.foldl (fun pages p => moveToEnd (p - 1) pages) pages =
      unmoved moves pages ++ moved moves pages := by
  simpa using foldl_moveToEnd_append moves pages [] hdec hmem

/-- Moves that take the positions with a property, from the highest to the lowest, leave the pages
at the other positions, and behind them those at the positions with the property in reverse. -/
theorem foldl_moveToEnd_filter (take : Nat → Bool) (pages : List α) :
    ((List.range' 1 pages.length).filter take).reverse.foldl
        (fun pages p => moveToEnd (p - 1) pages) pages =
      pagesAt (fun i => !take i) 1 pages ++ (pagesAt take 1 pages).reverse := by
  rw [foldl_moveToEnd_eq]
  · congr 1
    · refine pagesAt_congr fun i h₁ h₂ => ?_
      have hi : 1 ≤ i ∧ i < 1 + pages.length := ⟨h₁, h₂⟩
      cases h : take i <;> simp [h, hi]
    · rw [moved, List.filterMap_reverse, pagesAt, ← List.zipIdx_map_snd,
        List.filter_map, List.filterMap_map]
      congr 1
      rw [← List.filterMap_eq_map]
      refine List.filterMap_congr fun x hx => ?_
      obtain ⟨h₁, h₂, h₃⟩ := List.mem_zipIdx (List.mem_of_mem_filter hx)
      simp [h₃]
  · rw [List.pairwise_reverse]
    exact List.Pairwise.filter _ List.pairwise_lt_range'
  · intro p hp
    simp only [List.mem_reverse, List.mem_filter, List.mem_range'_1] at hp
    omega

/-! ## Page by page -/

/-- A move leaves what lies in front of its position. -/
theorem getElem?_moveToEnd_of_lt {i j : Nat} (h : j < i) (pages : List α) :
    (moveToEnd i pages)[j]? = pages[j]? := by
  rcases Nat.lt_or_ge i pages.length with hi | hi
  · have hlength : j < (pages.eraseIdx i).length := by
      rw [List.length_eraseIdx_of_lt hi]
      omega
    rw [moveToEnd, List.getElem?_append_left hlength, List.getElem?_eraseIdx_of_lt h]
  · rw [moveToEnd, List.eraseIdx_of_length_le hi, List.getElem?_eq_none hi, Option.toList_none,
      List.append_nil]

/-- So do moves, one after the other, that all lie behind it. -/
theorem getElem?_foldl_moveToEnd_of_lt {j : Nat} {moves : List Nat} (h : ∀ q ∈ moves, j + 1 < q)
    (pages : List α) :
    (moves.foldl (fun pages p => moveToEnd (p - 1) pages) pages)[j]? = pages[j]? := by
  induction moves generalizing pages with
  | nil => rfl
  | cons q moves ih =>
    obtain ⟨hq, hmoves⟩ := List.forall_mem_cons.1 h
    rw [List.foldl_cons, ih hmoves, getElem?_moveToEnd_of_lt (by omega)]

/-- A move behind those of higher positions takes the page that was there at first. -/
theorem applyMoves_snoc {front : List Nat} {p : Nat} {pages : List α}
    (hfront : ∀ q ∈ front, p < q ∧ q ≤ pages.length) (h₁ : 1 ≤ p) (h₂ : p ≤ pages.length) :
    ∃ now page, pages[p - 1]? = some page ∧ applyMoves (front.map Nat.cast) pages = .ok now ∧
      now[p - 1]? = some page ∧
      applyMoves (front.map Nat.cast ++ [(p : Int)]) pages =
        .ok (now.eraseIdx (p - 1) ++ [page]) := by
  have hpage : pages[p - 1]? = some pages[p - 1] := List.getElem?_eq_getElem (by omega)
  have hbehind : ∀ q ∈ front, p - 1 + 1 < q := fun q hq => by
    have := (hfront q hq).1
    omega
  have hnow := (getElem?_foldl_moveToEnd_of_lt hbehind pages).trans hpage
  have hpositions : ∀ q ∈ front, 1 ≤ q ∧ q ≤ pages.length := fun q hq => by
    have := hfront q hq
    omega
  have hall : ∀ q ∈ front ++ [p], 1 ≤ q ∧ q ≤ pages.length :=
    List.forall_mem_append.2 ⟨hpositions, List.forall_mem_singleton.2 ⟨h₁, h₂⟩⟩
  have hrun := applyMoves_eq_ok hall
  rw [List.map_append, List.foldl_append, List.foldl_cons, List.foldl_nil, moveToEnd, hnow] at hrun
  exact ⟨_, _, hpage, applyMoves_eq_ok hpositions, hnow, hrun⟩

/-- The pages at positions that all exist. -/
theorem map_some_moved {moves : List Nat} {pages : List α}
    (hmem : ∀ p ∈ moves, 1 ≤ p ∧ p ≤ pages.length) :
    (moved moves pages).map some = moves.map fun p => pages[p - 1]? := by
  induction moves with
  | nil => rfl
  | cons p moves ih =>
    obtain ⟨⟨h₁, h₂⟩, hmoves⟩ := List.forall_mem_cons.1 hmem
    have hp : pages[p - 1]? = some pages[p - 1] := List.getElem?_eq_getElem (by omega)
    have hmoved : moved (p :: moves) pages = pages[p - 1] :: moved moves pages :=
      List.filterMap_cons_some hp
    rw [hmoved, List.map_cons, List.map_cons, ih hmoves, hp]

/-- Positions that are not negative are natural numbers. -/
theorem exists_eq_map_cast {moves : List Int} (h : ∀ p ∈ moves, 0 ≤ p) :
    ∃ positions : List Nat, moves = positions.map Nat.cast := by
  refine ⟨moves.map Int.toNat, ?_⟩
  rw [List.map_map]
  refine (List.map_id moves).symm.trans (List.map_congr_left fun p hp => ?_)
  exact (Int.toNat_of_nonneg (h p hp)).symm

/-- Moves whose positions are those of the pages before the first move. -/
structure TakesOriginals (moves : List Int) (pages : List α) : Prop where
  /-- The pages that are not moved keep their order, and the others, which were at the positions of
  the moves, follow in the order of the moves. -/
  result : ∃ taken : List α, taken.map some = moves.map (fun p => pages[(p - 1).toNat]?) ∧
    applyMoves moves pages = .ok (pagesAt (fun i => (i : Int) ∉ moves) 1 pages ++ taken)
  /-- When its turn comes, each position holds the page that was there at first, and that page is
  taken out and put at the end. -/
  step : ∀ front p back, moves = front ++ p :: back → ∃ now page,
    pages[(p - 1).toNat]? = some page ∧ applyMoves front pages = .ok now ∧
    now[(p - 1).toNat]? = some page ∧
    applyMoves (front ++ [p]) pages = .ok (now.eraseIdx (p - 1).toNat ++ [page])

/-- **Decreasing moves take the pages that were at their positions before the first move.** -/
theorem applyMoves_of_decreasing {moves : List Int} {pages : List α}
    (hdec : moves.Pairwise (· > ·)) (hmem : ∀ p ∈ moves, 1 ≤ p ∧ p ≤ pages.length) :
    TakesOriginals moves pages := by
  obtain ⟨moves, rfl⟩ := exists_eq_map_cast fun p hp => by
    have := hmem p hp
    omega
  have hcast : Function.Injective (Nat.cast : Nat → Int) := fun _ _ => Int.ofNat.inj
  have hindex : ∀ p : Nat, ((p : Int) - 1).toNat = p - 1 := fun p => by omega
  replace hdec : moves.Pairwise (· > ·) := by simpa [List.pairwise_map] using hdec
  replace hmem : ∀ p ∈ moves, 1 ≤ p ∧ p ≤ pages.length := fun p hp => by
    have := hmem p (List.mem_map_of_mem hp)
    omega
  constructor
  · refine ⟨moved moves pages, ?_, ?_⟩
    · rw [map_some_moved hmem, List.map_map]
      simp only [Function.comp_def, hindex]
    · have hunmoved : unmoved moves pages =
          pagesAt (fun i => (i : Int) ∉ moves.map Nat.cast) 1 pages :=
        pagesAt_congr fun i _ _ =>
          decide_eq_decide.2 (not_congr (List.mem_map_of_injective hcast).symm)
      rw [applyMoves_eq_ok hmem, foldl_moveToEnd_eq hdec hmem, hunmoved]
  · intro front p back hsplit
    obtain ⟨front, rest, rfl, rfl, hrest⟩ := List.map_eq_append_iff.1 hsplit
    obtain ⟨p, back, rfl, rfl, rfl⟩ := List.map_eq_cons_iff.1 hrest
    obtain ⟨hfront, hrest⟩ := List.forall_mem_append.1 hmem
    obtain ⟨h₁, h₂⟩ := hrest p List.mem_cons_self
    obtain ⟨-, -, habove⟩ := List.pairwise_append.1 hdec
    rw [hindex]
    exact applyMoves_snoc (fun q hq => ⟨habove q hq p List.mem_cons_self, (hfront q hq).2⟩) h₁ h₂

/-- The moves for eight pages. The fourth page is moved when two pages behind it have been moved. -/
theorem applyMoves_of_decreasing_eight :
    let moves : List Int := [8, 5, 4, 1]
    let pages := ["a", "b", "c", "d", "e", "f", "g", "h"]
    (moves.Pairwise (· > ·) ∧ ∀ p ∈ moves, 1 ≤ p ∧ p ≤ pages.length) ∧
      applyMoves moves pages = .ok ["b", "c", "f", "g", "h", "e", "d", "a"] ∧
      applyMoves [8, 5, 4] pages = .ok ["a", "b", "c", "f", "g", "h", "e", "d"] := by
  intro moves pages
  have hdec : moves.Pairwise (· > ·) := by decide
  have hmem : ∀ p ∈ moves, 1 ≤ p ∧ p ≤ pages.length := by decide
  obtain ⟨⟨taken, htaken, hrun⟩, hstep⟩ := applyMoves_of_decreasing hdec hmem
  obtain rfl : taken = ["h", "e", "d", "a"] :=
    List.map_injective_iff.2 (fun _ _ => Option.some.inj) htaken
  obtain ⟨now, page, hpage, hnow, -, hmoved⟩ := hstep [8, 5] 4 [1] rfl
  cases hpage
  cases hnow
  exact ⟨⟨hdec, hmem⟩, hrun, hmoved⟩

end Folio.Pages
