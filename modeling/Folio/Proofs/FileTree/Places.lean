import Folio.Output.Store
import Folio.Proofs.Effects
import Folio.Proofs.FileTree.Adding

/-!
# Trees with the same places

Where paths lead depends on the places of a tree: where its directories are and where it has other
entries. Trees with the same places (`SamePlaces`) have the same spots for all paths, and look alike
to every operation that reads no file. A relation of such trees that is kept when a directory is put
into both is kept when directories are made (`KeptByDirectories.makeDirectories`).
-/

namespace Folio.FileTree

variable {t t' : FileTree}

/-- Two trees have directories and other entries at the same locations, and start from the same
one. -/
structure SamePlaces (t t' : FileTree) : Prop where
  cwd : t'.cwd = t.cwd
  isDirectory : ∀ l, t'.isDirectory l = t.isDirectory l
  has : ∀ l, t'.has l = t.has l

namespace SamePlaces

/-! ## Paths -/

theorem origin (h : SamePlaces t t') (p : Path) : t'.origin p = t.origin p := by
  unfold FileTree.origin
  rw [h.cwd]

theorem spotIn (h : SamePlaces t t') (dir : Location) (part : String) :
    t'.spotIn dir part = t.spotIn dir part := by
  simp only [FileTree.spotIn, h.isDirectory]

theorem settle (h : SamePlaces t t') (s : Spot) : t'.settle s = t.settle s := by
  cases s <;> simp only [FileTree.settle, h.has]

theorem walk (h : SamePlaces t t') (dir : Location) (parts : List String) :
    t'.walk dir parts = t.walk dir parts := by
  induction parts generalizing dir with
  | nil => rfl
  | cons part parts ih => simp only [FileTree.walk, h.spotIn, h.settle, ih]

theorem spot (h : SamePlaces t t') (p : Path) : t'.spot p = t.spot p := by
  simp only [FileTree.spot, h.origin, h.walk, h.spotIn]

theorem locate (h : SamePlaces t t') (p : Path) : t'.locate p = t.locate p := by
  simp only [FileTree.locate, h.spot, h.settle]

theorem names_iff (h : SamePlaces t t') {p : Path} {l : Location} :
    t'.Names p l ↔ t.Names p l :=
  ⟨fun hn => ⟨hn.hasNul, by simpa only [h.spot] using hn.spot⟩,
    fun hn => ⟨hn.hasNul, by simpa only [h.spot] using hn.spot⟩⟩

/-- What is asked about the entry that a path leads to has the same answer if it has for the entries
at each location. -/
theorem map_probe {α : Type} (h : SamePlaces t t') {f : Option Entry → α}
    (hf : ∀ l, f (t'.get? l) = f (t.get? l)) (p : Path) :
    (t'.probe p).map f = (t.probe p).map f := by
  unfold probe
  split
  · rfl
  · rw [h.locate]
    rcases t.locate p with fault | l
    · cases fault <;> rfl
    · exact congrArg Except.ok (hf l)

theorem pathExists (h : SamePlaces t t') (p : Path) : t'.pathExists p = t.pathExists p :=
  h.map_probe h.has p

theorem isDirectoryAt (h : SamePlaces t t') (p : Path) : t'.isDirectoryAt p = t.isDirectoryAt p :=
  h.map_probe h.isDirectory p

theorem fileSpot (h : SamePlaces t t') (p : Path) : t'.fileSpot p = t.fileSpot p := by
  simp only [FileTree.fileSpot, h.spot, h.isDirectory]

theorem faultIn {α : Type} (h : SamePlaces t t') (p : Path) (fault : Fault) :
    (t'.faultIn p fault : Except Fault α) = t.faultIn p fault := by
  simp only [FileTree.faultIn, h.locate, h.isDirectory]

theorem freshSpot (h : SamePlaces t t') (text : String) : t'.freshSpot text = t.freshSpot text := by
  simp only [FileTree.freshSpot, h.faultIn, h.spot, h.has]

theorem nextNumber (h : SamePlaces t t') (hlength : t'.entries.length = t.entries.length)
    (suffix : String) (buffers : Nat) :
    Store.freeNumber t' suffix (t'.entries.length + 1) buffers =
      Store.freeNumber t suffix (t.entries.length + 1) buffers := by
  have hfree : ∀ limit n,
      Store.freeNumber t' suffix limit n = Store.freeNumber t suffix limit n := by
    intro limit
    induction limit with
    | zero => intro n; rfl
    | succ limit ih => intro n; simp only [Store.freeNumber, h.freshSpot, ih]
  rw [hlength, hfree]

theorem existingTargets (h : SamePlaces t t') (directory : Path) :
    ∀ names : List String,
      Store.existingTargets t' directory names = Store.existingTargets t directory names
  | [] => rfl
  | name :: names => by
    unfold Store.existingTargets
    rw [h.pathExists, h.existingTargets directory names]

end SamePlaces

/-! ## Directories that are made in both trees -/

/-- A relation of trees with the same places that is kept when a directory is put into both. -/
structure KeptByDirectories (r : FileTree → FileTree → Prop) : Prop where
  places : ∀ {t t'}, r t t' → SamePlaces t t'
  put : ∀ {t t' l}, l ≠ [] → r t t' → r (t.put l .directory) (t'.put l .directory)

namespace KeptByDirectories

variable {r : FileTree → FileTree → Prop}

theorem makeDirectory (hr : KeptByDirectories r) (h : r t t') (p : Path) :
    Matching r (t.makeDirectory p) (t'.makeDirectory p) := by
  unfold FileTree.makeDirectory ask
  split
  · exact .error _
  · rw [(hr.places h).spot]
    rcases t.spot p with f | d | ⟨d, n⟩
    · exact .error _
    · exact .error _
    · dsimp only
      rw [(hr.places h).has]
      split
      · exact .error _
      · exact .ok (hr.put (by simp) h)

theorem orExisting (hr : KeptByDirectories r) (h : r t t') (p : Path)
    {x x' : Except FileError FileTree} (hx : Matching r x x') :
    Abreast r (t.orExisting p x) (t'.orExisting p x') := by
  cases hx with
  | ok hnext => exact ⟨rfl, hnext⟩
  | error e =>
    unfold FileTree.orExisting
    rw [(hr.places h).isDirectoryAt]
    cases e <;> dsimp only <;> try exact ⟨rfl, h⟩
    all_goals
      split <;> exact ⟨rfl, h⟩

theorem makeChain (hr : KeptByDirectories r) (anchor : Anchor) :
    ∀ (limit : Nat) (rev : List String) {t t' : FileTree}, r t t' →
      Abreast r (t.makeChain anchor limit rev) (t'.makeChain anchor limit rev)
  | 0, _, _, _, h => ⟨rfl, h⟩
  | _ + 1, [], _, _, h => hr.orExisting h _ (hr.makeDirectory h _)
  | limit + 1, part :: up, t, t', h => by
    have hmade := hr.makeDirectory h ⟨anchor, (part :: up).reverse⟩
    have hchain := hr.makeChain anchor limit up h
    unfold FileTree.makeChain
    dsimp only
    generalize t.makeDirectory ⟨anchor, (part :: up).reverse⟩ = x at hmade ⊢
    generalize t'.makeDirectory ⟨anchor, (part :: up).reverse⟩ = x' at hmade ⊢
    cases hmade with
    | ok hnext => exact hr.orExisting h _ (.ok hnext)
    | error e =>
      cases e with
      | system fault text =>
        cases fault with
        | noEntry =>
          dsimp only
          generalize t.makeChain anchor limit up = c at hchain ⊢
          generalize t'.makeChain anchor limit up = c' at hchain ⊢
          obtain ⟨outcome, next⟩ := c
          obtain ⟨outcome', next'⟩ := c'
          obtain ⟨houtcome, hnext⟩ := hchain
          obtain rfl : outcome' = outcome := houtcome
          rcases outcome' with e | ⟨⟨⟩⟩
          · exact ⟨rfl, hnext⟩
          · have hagain := hr.makeDirectory hnext ⟨anchor, (part :: up).reverse⟩
            dsimp only
            generalize next.makeDirectory ⟨anchor, (part :: up).reverse⟩ = y at hagain ⊢
            generalize next'.makeDirectory ⟨anchor, (part :: up).reverse⟩ = y' at hagain ⊢
            cases hagain with
            | ok hnext' => exact hr.orExisting hnext _ (.ok hnext')
            | error e =>
              cases e with
              | system fault text =>
                cases fault with
                | noEntry => exact ⟨rfl, hnext⟩
                | _ => exact hr.orExisting hnext _ (.error _)
              | _ => exact hr.orExisting hnext _ (.error _)
        | _ => exact hr.orExisting h _ (.error _)
      | _ => exact hr.orExisting h _ (.error _)

/-- **Directories are made alike** in trees that are related. -/
theorem makeDirectories (hr : KeptByDirectories r) (h : r t t') (p : Path) :
    Abreast r (t.makeDirectories p) (t'.makeDirectories p) :=
  hr.makeChain _ _ _ h

end KeptByDirectories

end Folio.FileTree
