import Folio.Proofs.FileTree.Moving
import Folio.Proofs.FileTree.Places

/-!
# Trees whose entries are listed in another order

A tree keeps its entries in the order in which its directories are enumerated. Two trees that have
the same entries and list them in different orders (`Rearranged`) look alike to every operation but
the enumeration: paths lead to the same entries, and what an operation does to one tree it does to
the other, with an outcome that is the same (`Rearranged.move` for moves of files). The entries stay
rearranged, as what is added to one is added to the other.
-/

namespace Folio.FileTree

variable {t t' : FileTree}

/-- The second tree has the entries of the first, listed in any order. -/
structure Rearranged (t t' : FileTree) : Prop where
  cwd : t'.cwd = t.cwd
  entries : t'.entries.Perm t.entries
  get?_eq : ∀ l, t'.get? l = t.get? l

/-- What is asked for the same outcome comes to related results. -/
theorem matching_ask {α β : Type} {r : β → β → Prop} (p : Path) {x : Except Fault α}
    {f f' : α → β} (hr : ∀ a, x = .ok a → r (f a) (f' a)) :
    Matching r ((ask p x).map f) ((ask p x).map f') := by
  unfold ask
  split
  · exact .error _
  · cases x with
    | error fault => exact .error _
    | ok a => exact .ok (hr a rfl)

namespace Rearranged

/-! ## Looking at trees -/

theorem has_eq (h : Rearranged t t') (l : Location) : t'.has l = t.has l := by
  unfold has
  rw [h.get?_eq]

theorem isDirectory_eq (h : Rearranged t t') (l : Location) :
    t'.isDirectory l = t.isDirectory l := by
  unfold isDirectory
  rw [h.get?_eq]

theorem samePlaces (h : Rearranged t t') : SamePlaces t t' := ⟨h.cwd, h.isDirectory_eq, h.has_eq⟩

theorem wellFormed (h : Rearranged t t') (ht : t.WellFormed) : t'.WellFormed where
  cwd := by
    rw [h.cwd, h.isDirectory_eq]
    exact ht.cwd
  parent l hl hhas := by
    rw [h.isDirectory_eq]
    exact ht.parent l hl (h.has_eq l ▸ hhas)

theorem probe (h : Rearranged t t') (p : Path) : t'.probe p = t.probe p := by
  unfold FileTree.probe
  rw [h.samePlaces.locate]
  simp only [h.get?_eq]

theorem isFileAt (h : Rearranged t t') (p : Path) : t'.isFileAt p = t.isFileAt p := by
  unfold FileTree.isFileAt
  rw [h.probe]

theorem read (h : Rearranged t t') (p : Path) : t'.read p = t.read p := by
  have hcontent : t'.contentAt = t.contentAt := by
    funext l
    unfold contentAt
    rw [h.get?_eq]
  unfold FileTree.read
  rw [h.samePlaces.locate, hcontent]

theorem lexical (h : Rearranged t t') (p : Path) : t'.lexical p = t.lexical p := by
  unfold FileTree.lexical
  rw [h.samePlaces.origin]

theorem pathTo (h : Rearranged t t') (l : Location) : t'.pathTo l = t.pathTo l := by
  unfold FileTree.pathTo
  rw [h.cwd]

/-! ## Changes of entries -/

theorem put (h : Rearranged t t') {l : Location} (hl : l ≠ []) (e : Entry) :
    Rearranged (t.put l e) (t'.put l e) where
  cwd := by rw [cwd_put, cwd_put, h.cwd]
  entries := by
    have hlookup : t'.entries.lookup l = t.entries.lookup l := by
      simpa [get?, hl] using h.get?_eq l
    unfold FileTree.put
    rw [hlookup]
    split
    · exact h.entries.map _
    · exact h.entries.append_right _
  get?_eq k := by rw [get?_put t' hl, get?_put t hl, h.get?_eq]

theorem erase (h : Rearranged t t') {l : Location} (hl : l ≠ []) :
    Rearranged (t.erase l) (t'.erase l) where
  cwd := h.cwd
  entries := h.entries.filter _
  get?_eq k := by rw [get?_erase t' hl, get?_erase t hl, h.get?_eq]

theorem keptByDirectories : KeptByDirectories Rearranged := ⟨samePlaces, fun hl h => h.put hl _⟩

/-- A file that is moved in both trees is at the same place in both. -/
theorem of_moved (h : Rearranged t t') {t₁ t₁' : FileTree} {a b : Location} {c : Content}
    (hentries : t₁'.entries.Perm t₁.entries) (hmoved : Moved t t₁ a b c)
    (hmoved' : Moved t' t₁' a b c) : Rearranged t₁ t₁' where
  cwd := by rw [hmoved'.cwd, hmoved.cwd, h.cwd]
  entries := hentries
  get?_eq l := by rw [hmoved'.get?_eq, hmoved.get?_eq, h.get?_eq]

/-! ## Operations on one file -/

theorem write (h : Rearranged t t') (p : Path) (c : Content) :
    Matching Rearranged (t.write p c) (t'.write p c) := by
  unfold FileTree.write
  rw [h.samePlaces.fileSpot]
  refine matching_ask p fun l hl => ?_
  obtain ⟨d, n, -, -, rfl⟩ := fileSpot_eq_ok hl
  exact h.put (by simp) _

theorem createFresh (h : Rearranged t t') (text : String) :
    Matching Rearranged (t.createFresh text) (t'.createFresh text) := by
  unfold FileTree.createFresh
  rw [h.samePlaces.freshSpot]
  split
  · exact .error _
  · cases hl : t.freshSpot text with
    | error fault => exact .error _
    | ok l =>
      obtain ⟨d, n, -, -, rfl⟩ := freshSpot_eq_ok hl
      exact .ok (h.put (by simp) _)

theorem unlink (h : Rearranged t t') (p : Path) :
    Matching Rearranged (t.unlink p) (t'.unlink p) := by
  unfold FileTree.unlink ask
  rw [h.samePlaces.spot]
  split
  · exact .error _
  · rcases t.spot p with fault | dir | ⟨dir, name⟩
    · exact .error _
    · exact .error _
    · dsimp only
      rw [h.get?_eq]
      rcases t.get? (dir ++ [name]) with _ | _ | c
      · exact .error _
      · exact .error _
      · exact .ok (h.erase (by simp))

theorem append (h : Rearranged t t') (l : Location) (s : String) :
    Rearranged (t.append l s) (t'.append l s) := by
  unfold FileTree.append
  rw [h.get?_eq]
  by_cases hl : l = []
  · subst hl
    simpa using h
  · split
    · exact h.put hl _
    · exact h

/-! ## Moving a file -/

section
variable {source : Path} {d : Location} {n : String} {c : Content}

/-- A file is renamed alike in both trees. -/
theorem rename (h : Rearranged t t') (ht : t.WellFormed)
    (hsource : t.spot source = .ok (.named d n)) (hfile : t.get? (d ++ [n]) = some (.file c))
    (target : Path) : Matching Rearranged (t.rename source target) (t'.rename source target) := by
  have ht' := h.wellFormed ht
  unfold FileTree.rename
  rw [h.samePlaces.spot, h.samePlaces.spot, hsource]
  rcases t.spot target with fault | dir | ⟨d', n'⟩
  · exact .error _
  · exact .error _
  have ha : d ++ [n] ≠ [] := by simp
  have hb : d' ++ [n'] ≠ [] := by simp
  dsimp only
  generalize d ++ [n] = a at hfile ha ⊢
  generalize d' ++ [n'] = b at hb ⊢
  have hfile' : t'.get? a = some (.file c) := (h.get?_eq a).trans hfile
  have hb' := h.get?_eq b
  rw [hfile, hfile', hb']
  dsimp only
  split
  · exact .ok h
  next hab =>
  split
  · exact .error _
  split
  · exact .error _
  rcases hold : t.get? b with _ | _ | old
  · rw [hold] at hb'
    exact .ok (h.of_moved (h.entries.map _) (moved_relocate ht ha hb hfile hold)
      (moved_relocate ht' ha hb hfile' hb'))
  · exact .error _
  · rw [hold] at hb'
    exact .ok (h.of_moved ((h.entries.filter _).map _)
      (moved_erase_relocate ht ha hb hab hfile hold)
      (moved_erase_relocate ht' ha hb hab hfile' hb'))

theorem carryFile (h : Rearranged t t') (source target : Path) (shown : String) :
    Abreast Rearranged (t.carryFile source target shown) (t'.carryFile source target shown) := by
  unfold FileTree.carryFile
  rw [h.read, h.samePlaces.fileSpot]
  cases t.read source with
  | error e => exact ⟨rfl, h⟩
  | ok content =>
    cases hspot : t.fileSpot target with
    | error fault => exact ⟨rfl, h⟩
    | ok l =>
      have hl : l ≠ [] := by
        obtain ⟨d, n, -, -, rfl⟩ := fileSpot_eq_ok hspot
        simp
      have hput := h.put hl (.file content)
      have hunlinked := hput.unlink source
      dsimp only
      generalize (t.put l (.file content)).unlink source = x at hunlinked ⊢
      generalize (t'.put l (.file content)).unlink source = x' at hunlinked ⊢
      cases hunlinked with
      | ok hnext => exact ⟨rfl, hnext⟩
      | error e => exact ⟨rfl, hput⟩

/-- A file is transferred alike in both trees. -/
theorem transfer (h : Rearranged t t') (ht : t.WellFormed)
    (hsource : t.spot source = .ok (.named d n)) (hfile : t.get? (d ++ [n]) = some (.file c))
    (goal target : Path) (shown : String) :
    Abreast Rearranged (t.transfer source goal target shown)
      (t'.transfer source goal target shown) := by
  have hlocate := locate_of_spot hsource (has_iff.2 ⟨_, hfile⟩)
  have hrenamed := h.rename ht hsource hfile target
  unfold FileTree.transfer
  generalize t.rename source target = x at hrenamed ⊢
  generalize t'.rename source target = x' at hrenamed ⊢
  cases hrenamed with
  | ok hnext => exact ⟨rfl, hnext⟩
  | error fault =>
    dsimp only
    rw [h.samePlaces.locate, hlocate]
    simp only [Except.map, h.isDirectory_eq, not_isDirectory_of_file hfile]
    exact h.carryFile source target shown

/-- **A file is moved alike** in both trees. -/
theorem move (h : Rearranged t t') (ht : t.WellFormed)
    (hsource : t.spot source = .ok (.named d n)) (hfile : t.get? (d ++ [n]) = some (.file c))
    (target : Path) : Abreast Rearranged (t.move source target) (t'.move source target) := by
  have htransfer := h.transfer ht hsource hfile
  unfold FileTree.move
  split
  · exact ⟨rfl, h⟩
  simp only [h.samePlaces.locate, h.isDirectory_eq]
  rcases t.locate target with fault | l
  · exact htransfer target target target.text
  simp only [Except.map]
  cases t.isDirectory l with
  | false => exact htransfer target target target.text
  | true =>
    dsimp only
    split
    · have hrenamed := h.rename ht hsource hfile target
      generalize t.rename source target = x at hrenamed ⊢
      generalize t'.rename source target = x' at hrenamed ⊢
      cases hrenamed with
      | ok hnext => exact ⟨rfl, hnext⟩
      | error fault => exact ⟨rfl, h⟩
    · split
      · exact ⟨rfl, h⟩
      · exact htransfer target _ _

end

end Rearranged

end Folio.FileTree
