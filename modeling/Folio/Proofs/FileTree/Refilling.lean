import Folio.Proofs.FileTree.Places
import Folio.Proofs.Output.Buffers

/-!
# Trees that differ in what their files hold

`refill` gives the files of a tree other contents. The refilled tree has the same places
(`samePlaces_refill`), so paths lead where they led and directories are made as before
(`makeDirectories_refill`).
-/

namespace Folio

/-- An entry with another content, if it is a file. -/
def Entry.refill (f : Content → Content) : Entry → Entry
  | .directory => .directory
  | .file c => .file (f c)

namespace FileTree

/-- The tree with other contents in its files. -/
def refill (f : Location → Content → Content) (t : FileTree) : FileTree :=
  { t with entries := t.entries.map fun (l, e) => (l, e.refill (f l)) }

variable {f : Location → Content → Content} {t : FileTree}

/-! ## Entries -/

private theorem lookup_refill (es : List (Location × Entry)) (l : Location) :
    (es.map fun (k, e) => (k, e.refill (f k))).lookup l =
      (es.lookup l).map (Entry.refill (f l)) := by
  induction es with
  | nil => rfl
  | cons x es ih =>
    obtain ⟨k, e⟩ := x
    rw [List.map_cons, List.lookup_cons, List.lookup_cons]
    by_cases h : l = k
    · simp [h]
    · rw [beq_false_of_ne h]
      exact ih

@[simp] theorem get?_refill (l : Location) :
    (t.refill f).get? l = (t.get? l).map (Entry.refill (f l)) := by
  unfold get? refill
  split
  · rfl
  · exact lookup_refill _ _

/-- A tree whose files keep their contents stays as it is. -/
theorem refill_self (t : FileTree) : t.refill (fun _ c => c) = t := by
  have hentry : ∀ e : Entry, (e.refill fun c => c) = e := fun e => by cases e <;> rfl
  simp [refill, hentry]

@[simp] theorem length_entries_refill : (t.refill f).entries.length = t.entries.length := by
  simp [refill]

@[simp] theorem has_refill (l : Location) : (t.refill f).has l = t.has l := by
  simp [has]

@[simp] theorem isDirectory_refill (l : Location) :
    (t.refill f).isDirectory l = t.isDirectory l := by
  unfold isDirectory
  rw [get?_refill]
  rcases t.get? l with _ | _ | _ <;> rfl

/-- A directory can be put before or after files are given other contents. -/
theorem put_directory_refill (l : Location) :
    (t.refill f).put l .directory = (t.put l .directory).refill f := by
  unfold put
  have hlookup : (t.refill f).entries.lookup l = (t.entries.lookup l).map (Entry.refill (f l)) :=
    lookup_refill _ _
  rw [hlookup, Option.isSome_map]
  split
  · simp only [refill, List.map_map, FileTree.mk.injEq, true_and]
    refine List.map_congr_left fun x _ => ?_
    simp only [Function.comp_apply]
    split <;> rfl
  · simp only [refill, List.map_append]
    rfl

/-- A new file in a refilled tree is one that has been refilled with the others. -/
theorem exists_refill_withFiles {l : Location} (hl : l ≠ []) (hnone : t.get? l = none)
    (c c' : Content) :
    ∃ f', (t.refill f).withFiles [(l, c)] = (t.withFiles [(l, c')]).refill f' := by
  refine ⟨fun k old => if k = l then c else f k old, ?_⟩
  have hmem := notMem_of_get?_none hl hnone
  have hold : ∀ x ∈ t.entries, (x.1, x.2.refill fun old => if x.1 = l then c else f x.1 old) =
      (x.1, x.2.refill (f x.1)) := by
    intro x hx
    have hx : x.1 ≠ l := fun h => hmem x.2 (h ▸ hx)
    simp only [if_neg hx]
  simp only [refill, withFiles, List.map_append, List.map_cons, List.map_nil, FileTree.mk.injEq,
    true_and]
  rw [List.map_congr_left hold]
  simp [Entry.refill]

/-! ## Places -/

/-- What files hold makes no difference to the places of a tree. -/
theorem samePlaces_refill (f : Location → Content → Content) (t : FileTree) :
    SamePlaces t (t.refill f) :=
  ⟨rfl, fun _ => isDirectory_refill _, fun _ => has_refill _⟩

/-- A path names the same location, whatever files hold. -/
@[simp] theorem names_refill {p : Path} {l : Location} :
    (t.refill f).Names p l ↔ t.Names p l :=
  (samePlaces_refill f t).names_iff

@[simp] theorem pathExists_refill (p : Path) : (t.refill f).pathExists p = t.pathExists p :=
  (samePlaces_refill f t).pathExists p

theorem keptByDirectories_refill (f : Location → Content → Content) :
    KeptByDirectories fun t t' => t' = t.refill f where
  places := by
    rintro t _ rfl
    exact samePlaces_refill f t
  put := by
    rintro t _ l - rfl
    exact put_directory_refill l

/-- An outcome next to a tree, with the files of the tree refilled. -/
def refillNext {α : Type} (f : Location → Content → Content) (r : α × FileTree) : α × FileTree :=
  (r.1, r.2.refill f)

/-- **Directories are made alike**, whatever files hold. -/
theorem makeDirectories_refill (p : Path) :
    (t.refill f).makeDirectories p = refillNext f (t.makeDirectories p) := by
  obtain ⟨houtcome, htree⟩ := (keptByDirectories_refill f).makeDirectories (t := t) rfl p
  exact Prod.ext houtcome htree

/-- Whether a fresh file can be made does not depend on what the other files hold. -/
theorem createFresh_refill_iff {text : String} :
    (∃ t', (t.refill f).createFresh text = .ok t') ↔ ∃ t', t.createFresh text = .ok t' := by
  unfold createFresh
  rw [(samePlaces_refill f t).freshSpot]
  split
  · exact Iff.rfl
  · cases t.freshSpot text <;> simp

end FileTree

@[simp] theorem Store.nextNumber_refill {f : Location → Content → Content} {t : FileTree}
    (suffix : String) (buffers : Nat) :
    nextNumber (t.refill f) suffix buffers = nextNumber t suffix buffers :=
  (FileTree.samePlaces_refill f t).nextNumber FileTree.length_entries_refill suffix buffers

end Folio
