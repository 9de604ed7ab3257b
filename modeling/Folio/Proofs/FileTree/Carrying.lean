import Folio.Proofs.FileTree.Adding
import Folio.Proofs.FileTree.Moving

/-!
# Moving files one after the other

`Carried` is a list of moves, each in the tree that the ones before it leave. No move of a file
changes a directory, so paths lead where they led before (`Carried.directoriesKept`). Elsewhere than
at the locations that files are taken from, the last move to a location decides what is found there
(`Carried.get?_of_notMem`).
-/

namespace Folio.FileTree

/-- Files are taken from some locations, in this order, and put at others with what they hold
then. -/
inductive Carried : FileTree → List Location → List (Location × Content) → FileTree → Prop
  | nil (t : FileTree) : Carried t [] [] t
  | cons {t t₁ t' : FileTree} {a b : Location} {c : Content} {as : List Location}
      {bs : List (Location × Content)} (hfile : t.get? a = some (.file c))
      (hb : t.isDirectory b = false) (hup : t.isDirectory b.dropLast = true)
      (hmoved : Moved t t₁ a b c) (hrest : Carried t₁ as bs t') :
      Carried t (a :: as) ((b, c) :: bs) t'

variable {t t' : FileTree} {b : Location} {as : List Location} {bs : List (Location × Content)}

namespace Carried

theorem isDirectory_eq (h : Carried t as bs t') (l : Location) :
    t'.isDirectory l = t.isDirectory l := by
  induction h with
  | nil => rfl
  | cons hfile hb _ hmoved _ ih =>
    rw [ih, hmoved.isDirectory_eq (not_isDirectory_of_file hfile) hb]

theorem cwd_eq (h : Carried t as bs t') : t'.cwd = t.cwd := by
  induction h with
  | nil => rfl
  | cons _ _ _ hmoved _ ih => rw [ih, hmoved.cwd]

theorem directoriesKept (h : Carried t as bs t') : DirectoriesKept t t' :=
  ⟨h.cwd_eq, fun l hl => by rwa [h.isDirectory_eq]⟩

theorem directoriesKept_back (h : Carried t as bs t') : DirectoriesKept t' t :=
  ⟨h.cwd_eq.symm, fun l hl => by rwa [← h.isDirectory_eq]⟩

theorem wellFormed (h : Carried t as bs t') (ht : t.WellFormed) : t'.WellFormed := by
  induction h with
  | nil => exact ht
  | cons hfile hb hup hmoved _ ih =>
    exact ih (hmoved.wellFormed ht (not_isDirectory_of_file hfile) hb hup)

/-- **The last move to a location decides** what is found there, unless it is one that files are
taken from. -/
theorem get?_of_notMem (h : Carried t as bs t') {l : Location} (hl : l ∉ as) :
    t'.get? l = (bs.reverse.lookup l).elim (t.get? l) (some ∘ .file) := by
  induction h with
  | nil => rfl
  | @cons t t₁ t' a b c as bs hfile hb hup hmoved hrest ih =>
    rw [List.mem_cons, not_or] at hl
    obtain ⟨hla, hl⟩ := hl
    rw [ih hl, List.reverse_cons, List.lookup_append, hmoved.get?_eq l]
    cases bs.reverse.lookup l with
    | some x => rfl
    | none =>
      by_cases hlb : l = b
      · simp [hlb]
      · simp [hlb, hla, List.lookup_cons, beq_false_of_ne hlb]

/-- Where a file is taken from and none is put, nothing is left. -/
theorem get?_of_mem (h : Carried t as bs t') {l : Location} (hl : l ∈ as)
    (hbs : l ∉ bs.map Prod.fst) : t'.get? l = none := by
  have hstays : ∀ {t t' as bs}, Carried t as bs t' → t.get? l = none → l ∉ bs.map Prod.fst →
      t'.get? l = none := by
    intro t t' as bs h hnone hbs
    induction h with
    | nil => exact hnone
    | @cons _ _ _ a b c _ _ _ _ _ hmoved _ ih =>
      rw [List.map_cons, List.mem_cons, not_or] at hbs
      refine ih ?_ hbs.2
      rw [hmoved.get?_eq, if_neg hbs.1, hnone, ite_self]
  induction h with
  | nil => cases hl
  | @cons t t₁ t' a b c as bs hfile hb hup hmoved hrest ih =>
    rw [List.map_cons, List.mem_cons, not_or] at hbs
    rcases List.mem_cons.1 hl with rfl | hl
    · exact hstays hrest (by rw [hmoved.get?_eq, if_neg hbs.1, if_pos rfl]) hbs.2
    · exact ih hl hbs.2

end Carried

/-! ## Landings -/

/-- Where a file lands that is moved to a path, if it lands anywhere. -/
def landing (t : FileTree) (source target : Path) : Location :=
  match t.locate target, t.spot target with
  | .ok l, _ => if t.isDirectory l then l ++ [source.name] else l
  | .error _, .ok (.named d n) => d ++ [n]
  | _, _ => []

theorem LandsAt.eq_landing {source target : Path} (h : t.LandsAt source target b) :
    b = t.landing source target := by
  unfold landing
  rcases h with ⟨hb, d, n, hspot, rfl⟩ | ⟨-, d, hlocate, hd, rfl⟩
  · by_cases hhas : t.has (d ++ [n]) = true
    · simp [locate_of_spot hspot hhas, hb]
    · simp [locate, hspot, settle, hhas]
  · simp [hlocate, hd]

end Folio.FileTree
