import Folio.Proofs.Document.Descriptions
import Folio.Proofs.Document.Opening
import Folio.Proofs.Document.SavedForm

/-!
# What split documents look like

The file that a source becomes, told page by page and entry by entry, without the drafts that it is
made with and without what writes them: `Pdf.SavedAs` for document files and `Rehearsal.SavedAs` for
rehearsals. Either medium saves nothing else (`Pdf.saves_medium`, `Rehearsal.saves_medium`).
-/

namespace Folio

variable {ρ σ κ δ π φ : Type}

/-! ## Halves in order -/

namespace Repagination

/-- An order has every page number once. -/
theorem order_perm (mode : Repagination) (count : Nat) :
    (mode.order count).Perm (List.range' 1 count) := by
  cases mode with
  | none => exact .refl _
  | lastFirst => exact Pages.perm_foldl_moveToEnd _ _

@[simp] theorem length_order (mode : Repagination) (count : Nat) :
    (mode.order count).length = count :=
  (mode.order_perm count).length_eq.trans List.length_range'

theorem mem_order {mode : Repagination} {count k : Nat} :
    k ∈ mode.order count ↔ 1 ≤ k ∧ k ≤ count := by
  rw [(mode.order_perm count).mem_iff, List.mem_range'_1]
  omega

end Repagination

/-- What is made of the halves of some pages, in the order of a mode: where the order has the number
`k`, it is made of a half of page `(k + 1) / 2`, of the first one if `k` is odd and of the second
one if `k` is even. -/
structure HalvesInOrder (mode : Repagination) (pages : List (SourcePage κ))
    (page : κ → Box Float → π) (new : List π) : Prop where
  length : new.length = 2 * pages.length
  half : ∀ {i k : Nat}, (mode.order (2 * pages.length))[i]? = some k → ∃ p first second,
    pages[(k + 1) / 2 - 1]? = some p ∧ p.box.Halved (first, second) ∧
      new[i]? = some (page p.content (if k % 2 = 1 then first.box else second.box))

namespace HalvesInOrder

variable {mode : Repagination} {pages : List (SourcePage κ)} {page : κ → Box Float → π}
  {new : List π}

/-- Something else may be made of every half. -/
theorem map {β : Type} (h : HalvesInOrder mode pages page new) (f : π → β) :
    HalvesInOrder mode pages (fun content box => f (page content box)) (new.map f) where
  length := List.length_map f ▸ h.length
  half hk := by
    obtain ⟨p, first, second, hp, hhalved, hnew⟩ := h.half hk
    exact ⟨p, first, second, hp, hhalved, by rw [List.getElem?_map, hnew, Option.map_some]⟩

/-- Nothing is left open: whatever has a number in the order is told by its page. -/
theorem map_some_eq (h : HalvesInOrder mode pages page new) :
    new.map some = (mode.order (2 * pages.length)).map fun k =>
      pages[(k + 1) / 2 - 1]?.map fun p =>
        page p.content (if k % 2 = 1 then p.halves.1.box else p.halves.2.box) := by
  refine List.ext_getElem? fun i => ?_
  rw [List.getElem?_map, List.getElem?_map]
  cases hk : (mode.order (2 * pages.length))[i]? with
  | none =>
    rw [List.getElem?_eq_none_iff, Repagination.length_order, ← h.length] at hk
    rw [List.getElem?_eq_none hk]
    rfl
  | some k =>
    obtain ⟨p, first, second, hp, hhalved, hnew⟩ := h.half hk
    have hhalves : (first, second) = p.halves := hhalved.eq_halves
    rw [hnew, Option.map_some, Option.map_some, hp, Option.map_some, ← hhalves]

/-- What is made of the halves can be worked out. -/
theorem eq_of_map_some {expected : List π} (h : HalvesInOrder mode pages page new)
    (hexpected : ((mode.order (2 * pages.length)).map fun k =>
      pages[(k + 1) / 2 - 1]?.map fun p =>
        page p.content (if k % 2 = 1 then p.halves.1.box else p.halves.2.box)) =
          expected.map some) :
    new = expected :=
  List.map_injective_iff.2 (fun _ _ => Option.some.inj) (h.map_some_eq.trans hexpected)

end HalvesInOrder

/-- The halves of some pages, taken in the order of a mode. -/
theorem PageView.Halves.inOrder {m : Medium ρ σ κ δ} {v : PageView m π φ} {mode : Repagination}
    {pages : List (SourcePage κ)} {halves new : List π} (h : v.Halves pages halves)
    (hnew : new.map some = (mode.order (2 * pages.length)).map fun k => halves[k - 1]?) :
    HalvesInOrder mode pages (fun content box => v.page content (some box)) new where
  length := by
    have hlength := congrArg List.length hnew
    rwa [List.length_map, List.length_map, Repagination.length_order] at hlength
  half {i k} hk := by
    obtain ⟨h₁, h₂⟩ := Repagination.mem_order.1 (List.mem_of_getElem? hk)
    have hplace : new[i]? = halves[k - 1]? := by
      have hplace := congrArg (·[i]?) hnew
      simp only [List.getElem?_map, hk, Option.map_some] at hplace
      obtain ⟨x, hx, heq⟩ := Option.map_eq_some_iff.1 hplace
      rw [hx, heq]
    have hin : (k + 1) / 2 - 1 < pages.length := by omega
    obtain ⟨first, second, hhalved, hfirst, hsecond⟩ :=
      h.split (k := (k + 1) / 2) (by omega) (List.getElem?_eq_getElem hin)
    refine ⟨_, first, second, List.getElem?_eq_getElem hin, hhalved, ?_⟩
    rcases Nat.mod_two_eq_zero_or_one k with heven | hodd
    · rw [if_neg (by omega), hplace, ← hsecond]
      congr 1
      omega
    · rw [if_pos hodd, hplace, ← hfirst]
      congr 1
      omega

/-- Whatever is opened in some tree and split is saved in a form that depends on the source and the
tree. -/
def Medium.Saves (m : Medium ρ σ κ δ) (Form : Settings ρ → FileTree → ρ → Content → Prop) : Prop :=
  ∀ {settings : Settings ρ} {t : FileTree} {source : ρ} {handle : σ} {made : Nat} {c : Content},
    m.openSource t source = .ok handle → m.form settings handle made = .ok c →
      Form settings t source c

/-! ## Document files -/

namespace Pdf

/-- The document file that a document file is split into. -/
structure SplitFile (settings : Settings Source) (file f : File) : Prop where
  /-- The header shows the version that is asked for, and for want of it that of the file. -/
  header : f.header = "%PDF-" ++ shownVersion (settings.version.getD file.version)
  /-- The pages are copies, each cropped to a half of its trim box. -/
  pages : HalvesInOrder settings.repagination (file.pages.map fun p => ⟨p, p.trim⟩)
    (fun p box => { p with crop := box }) f.pages
  nodup_keys : (f.description.info.map Prod.fst).Nodup
  /-- The information, such as the title, is carried over. The producer is told if the file tells
  none. -/
  lookup_info : ∀ key, f.description.info.lookup key = (file.description.info.reverse.lookup key).or
    (if key = "/Producer" then some "pypdf" else none)
  layout : f.description.layout = file.description.layout
  mode : f.description.mode = file.description.mode
  encryption : f.encryption = none

/-- A document file is saved as a document file, which it is split into. -/
def SavedAs (settings : Settings Source) (t : FileTree) (source : Source) (c : Content) : Prop :=
  ∃ file f, t.read source.path = .ok (.document file) ∧ c = .document f ∧
    SplitFile settings file f

/-- The split form of a document is a file that it is split into. -/
theorem splitFile_of_isSplitForm {settings : Settings Source} {handle : Handle} {file : File}
    {c : Content} (h : draftView.IsSplitForm settings handle c) (hfile : handle.file = some file) :
    ∃ f, c = .document f ∧ SplitFile settings file f := by
  obtain ⟨pages, halves, new, hpages, hhalves, hnew, rfl⟩ := h
  have hread : medium.pages handle = (file.pages.map Page.forSplitting).map .ok := by
    simp [medium, Handle.pages, hfile]
  obtain rfl : pages = file.pages.map Page.forSplitting := by
    have := hpages.symm.trans hread
    exact (List.map_injective_iff.2 fun _ _ h => Except.ok.inj h) this
  have hcarried : handle.carried = file.description := by
    simp [Handle.carried, hfile]
  refine ⟨_, rfl, {
    header := ?_
    pages := hhalves.inOrder hnew
    nodup_keys := ?_
    lookup_info := ?_
    layout := ?_
    mode := ?_
    encryption := rfl }⟩
  · have hversion : draftView.version settings.version handle =
        some (settings.version.getD file.version) := by
      simp only [draftView, hfile]
      cases settings.version <;> rfl
    rw [hversion]
    rfl
  · exact (nodup_foldl_setInfo handle.carried.info (by decide)).1
  · rw [← hcarried]
    exact lookup_info_overlay _
  · simp [draftView, Description.overlay, initialDescription, hcarried]
  · simp [draftView, Description.overlay, initialDescription, hcarried]

theorem saves_medium : medium.Saves SavedAs := by
  intro settings t source handle made c hopen hc
  obtain ⟨file, hread, hunlock⟩ := openIn_eq_ok.1 hopen
  obtain ⟨blank, d, hblank, hassemble, hcontent⟩ := Medium.form_eq_ok.1 hc
  obtain ⟨f, rfl, hsplit⟩ := splitFile_of_isSplitForm
    (draftView.isSplitForm_of_assemble hblank hassemble hcontent) (file_of_unlock hunlock)
  exact ⟨file, f, hread, rfl, hsplit⟩

end Pdf

/-! ## Rehearsals -/

namespace Rehearsal

/-- A rehearsed source is saved as a text: the version that is asked for, the name of the source as
the title, and a line for every page, with its label and the coordinates that it is cropped to. -/
def SavedAs (settings : Settings Source) (_ : FileTree) (s : Source) (c : Content) : Prop :=
  ∃ lines, c = .text ("\n".intercalate (("version " ++ settings.version.getD "None") ::
      ("title " ++ s.name) :: lines)) ∧
    HalvesInOrder settings.repagination s.pages (fun label box =>
      label ++ " " ++ Text.coordinates [box.left, box.bottom, box.right, box.top]) lines

theorem saves_medium (plan : Plan) : (medium plan).Saves SavedAs := by
  intro settings t s handle made c hopen hc
  obtain rfl : s = handle := by
    simp only [medium] at hopen
    split at hopen <;> cases hopen
    rfl
  obtain ⟨blank, d, hblank, hassemble, hcontent⟩ := Medium.form_eq_ok.1 hc
  obtain ⟨pages, halves, new, hpages, hhalves, hnew, rfl⟩ :=
    (draftView plan).isSplitForm_of_assemble hblank hassemble hcontent
  obtain rfl : pages = s.pages :=
    (List.map_injective_iff.2 fun _ _ h => Except.ok.inj h) hpages.symm
  exact ⟨_, rfl, (hhalves.inOrder hnew).map Page.line⟩

end Rehearsal

end Folio
