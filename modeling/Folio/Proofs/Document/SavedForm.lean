import Folio.Proofs.Document.Assembling
import Folio.Proofs.Document.Splitting

/-!
# The saved form of a split document

A `DraftView` reads a draft as its pages, its version and what describes it, and gives the content
of the file that such a draft is saved as. Document files and rehearsals both have one. A split
document that is saved has the halves of all pages of its source, in the order of its mode
(`DraftView.isSplitForm_of_assemble`). Which draft it is that a source is split into does not matter
in either medium, but that some drafts cannot be saved (`Medium.Impartial`).
-/

namespace Folio

variable {ρ σ κ δ π φ τ : Type}

/-! ## Orders -/

namespace Repagination

/-- The page numbers from `1` to `count` in the order that a mode gives the pages. -/
def order : Repagination → Nat → List Nat
  | none, count => List.range' 1 count
  | lastFirst, count => Pages.lastFirstOrder count

theorem map_moveToEnd {α β : Type} (f : α → β) (i : Nat) (pages : List α) :
    (Pages.moveToEnd i pages).map f = Pages.moveToEnd i (pages.map f) := by
  simp [Pages.moveToEnd, List.eraseIdx_eq_take_drop_succ, Option.toList_map]

/-- Moves do not look at the pages. -/
theorem map_foldl_moveToEnd {α β : Type} (f : α → β) (moves : List Nat) (pages : List α) :
    (moves.foldl (fun pages p => Pages.moveToEnd (p - 1) pages) pages).map f =
      moves.foldl (fun pages p => Pages.moveToEnd (p - 1) pages) (pages.map f) := by
  induction moves generalizing pages with
  | nil => rfl
  | cons p moves ih => rw [List.foldl_cons, List.foldl_cons, ih, map_moveToEnd]

/-- Pages that are looked up one after the other. -/
theorem map_getElem?_range' (pages : List π) :
    ((List.range' 1 pages.length).map fun k => pages[k - 1]?) = pages.map some := by
  refine List.ext_getElem (by simp) fun i h₁ h₂ => ?_
  have hi : i < pages.length := by simpa using h₂
  simp [hi]

/-- **Arranged pages follow the order of the mode**: where the order has a number, there is the page
with that number. -/
theorem map_some_arrange (mode : Repagination) (pages : List π) :
    (mode.arrange pages).map some = (mode.order pages.length).map fun k => pages[k - 1]? := by
  rw [arrange, map_foldl_moveToEnd, ← map_getElem?_range', ← map_foldl_moveToEnd]
  cases mode <;> rfl

end Repagination

/-! ## Views -/

/-- A view of drafts that says what they are saved as. A draft that has been given a version and
described by a source is saved as its pages, with its version and what the source carries over. -/
structure DraftView (m : Medium ρ σ κ δ) (π φ τ : Type) extends PageView m π φ where
  /-- The version of a new draft once it has been asked for one and a source has described it. -/
  version : Option String → σ → Option String
  /-- What describes a new draft once a source has described it. -/
  carried : σ → τ
  /-- The content of the file for some pages, a version and a description. -/
  saved : List π → Option String → τ → Content
  pages_newDraft : ∀ {made d}, m.newDraft made = .ok d → pages d = []
  pages_setVersion : ∀ {w d d'}, m.setVersion w d = .ok d' → pages d' = pages d
  pages_describe : ∀ {handle d d'}, m.describe handle d = (.ok (), d') → pages d' = pages d
  content_eq : ∀ {made w handle blank d₁ d₂ d c}, m.newDraft made = .ok blank →
    m.setVersion w blank = .ok d₁ → m.describe handle d₁ = (.ok (), d₂) → rest d = rest d₂ →
    m.content (m.sent d) = .ok c → c = saved (pages d) (version w handle) (carried handle)

namespace Pdf

/-- The version that a header shows: a document without a version is one of version 1.3. -/
def shownVersion (version : String) : String := if version = "" then "1.3" else version

theorem Draft.header_eq (d : Draft) : d.header = "%PDF-" ++ shownVersion (d.version.getD "") := by
  unfold header
  split
  · next h =>
    rw [h]
    rfl
  · next h =>
    rw [h]
    rfl
  · next v hne h =>
    rw [h, Option.getD_some, shownVersion, if_neg hne]

/-- What a draft takes over from a document: what is in the file, or else what was read of it. -/
def Handle.carried (h : Handle) : Description :=
  ((h.file.map File.description) <|> h.catalogue).getD ⟨[], none, none⟩

/-- A version that is asked for replaces the one that a draft had. -/
theorem Draft.setVersion_eq_ok {version : Option String} {d d' : Draft}
    (h : d.setVersion version = .ok d') : d' = { d with version := version <|> d.version } := by
  unfold setVersion at h
  split at h
  · cases h
    rfl
  · split at h <;> cases h
    rfl

/-- A description is laid over that of the draft, and a version is brought along if none was set. -/
theorem Draft.describe_eq_ok {h : Handle} {d d' : Draft} (hd : d.describe h = (.ok (), d')) :
    d' = { d with
      description := d.description.overlay h.carried
      version := d.version <|> h.file.map File.version } := by
  unfold describe at hd
  unfold Handle.carried
  split at hd
  · next _ file hfile =>
    cases hd
    rw [hfile]
    rfl
  · cases hd
  · next catalogue hfile hcatalogue =>
    rw [Prod.mk.injEq] at hd
    obtain ⟨-, rfl⟩ := hd
    rw [hfile, hcatalogue]
    simp

/-- Drafts of document files: the header shows the version, for want of another that of the source,
and what a source carries over is laid over what describes a new draft. -/
def draftView :
    DraftView medium Page (String × List Sheet × Option String × Description) Description where
  toPageView := pageView
  version w h := w <|> h.file.map File.version
  carried h := initialDescription.overlay h.carried
  saved pages version description := .document {
    header := "%PDF-" ++ shownVersion (version.getD "")
    pages, description
    encryption := none
    drafted := true }
  pages_newDraft h := by
    cases h
    rfl
  pages_setVersion h := by
    rw [Draft.setVersion_eq_ok h]
    rfl
  pages_describe h := by
    rw [Draft.describe_eq_ok h]
    rfl
  content_eq {_ w handle blank d₁ d₂ d c} hblank hversion hdescribe hrest hc := by
    cases hblank
    cases hc
    obtain rfl := Draft.setVersion_eq_ok hversion
    obtain rfl := Draft.describe_eq_ok hdescribe
    simp only [pageView, Prod.mk.injEq] at hrest
    obtain ⟨-, hwritten, hv, hdescription⟩ := hrest
    show Content.document d.sent.toFile = _
    simp [Draft.toFile, Draft.sent, Draft.header_eq, Draft.empty, hwritten, hv, hdescription,
      pageView]

end Pdf

/-- Rehearsed drafts: version and title come before the pages, each on a line of its own. -/
def Rehearsal.draftView (plan : Plan) : DraftView (medium plan) Page
    (Option String × Option String × Option SaveFault × Bool) String where
  toPageView := pageView plan
  version w _ := w
  carried s := s.name
  saved pages version title := .text ("\n".intercalate
    (("version " ++ version.getD "None") :: ("title " ++ title) :: pages.map Page.line))
  pages_newDraft h := by
    cases h
    rfl
  pages_setVersion h := by
    cases h
    rfl
  pages_describe h := by
    cases h
    rfl
  content_eq hblank hversion hdescribe hrest hc := by
    cases hblank
    cases hversion
    cases hdescribe
    simp only [medium, pageView, Prod.mk.injEq] at hrest hc
    obtain ⟨hv, ht, -⟩ := hrest
    split at hc
    · cases hc
    · cases hc
      simp only [Draft.text, hv, ht]
      rfl

/-! ## Split documents -/

theorem Medium.kept_eq_ok {r : Except Failure Unit × δ} {d : δ} (h : Medium.kept r = .ok d) :
    r = (.ok (), d) := by
  rcases r with ⟨_ | ⟨⟨⟩⟩, d'⟩
  · cases h
  · cases h
    rfl

/-- Work that succeeds leaves the draft that it yields. -/
theorem Work.Yields.draft_eq {α : Type} {w : Work δ α} {b b' : Bench δ} {d : δ} {a : α}
    (h : w.Yields b (.ok d)) (hrun : w.run b = (.ok a, b')) : b'.draft = d := by
  obtain ⟨a', b'', hrun', rfl⟩ := h
  rw [hrun] at hrun'
  cases hrun'
  rfl

/-- Leaves are added for pages that can all be read and split. -/
theorem Medium.addLeaves_eq_ok {m : Medium ρ σ κ δ} :
    ∀ {list : List (Except Failure (SourcePage κ))} {d d' : δ}, m.addLeaves list d = .ok d' →
      ∃ pages : List (SourcePage κ), list = pages.map .ok ∧ ∀ p ∈ pages, ¬ p.box.Degenerate
  | [], _, _, _ => ⟨[], rfl, fun _ hp => nomatch hp⟩
  | page :: list, d, d', h => by
    obtain ⟨p, hp, hrest⟩ := ok_of_bind h
    obtain ⟨d₁, hleaf, hrest⟩ := ok_of_bind hrest
    obtain ⟨pages, rfl, hpages⟩ := addLeaves_eq_ok hrest
    subst hp
    refine ⟨p :: pages, rfl, List.forall_mem_cons.2 ⟨fun hp => ?_, hpages⟩⟩
    simp [addLeaf, Box.split, Box.cut_of_degenerate _ hp] at hleaf

namespace DraftView

variable {m : Medium ρ σ κ δ} (v : DraftView m π φ τ) {settings : Settings ρ} {handle : σ}

/-- What the split document of a source is saved as: the halves of its pages in the order of the
mode, with the version that is asked for and what the source carries over. -/
def IsSplitForm (settings : Settings ρ) (handle : σ) (c : Content) : Prop :=
  ∃ (pages : List (SourcePage κ)) (halves new : List π),
    m.pages handle = pages.map .ok ∧ v.Halves pages halves ∧
      new.map some = (settings.repagination.order (2 * pages.length)).map
        (fun k => halves[k - 1]?) ∧
      c = v.saved new (v.version settings.version handle) (v.carried handle)

/-- **A split document that is saved** holds the halves of all pages in the order of the mode. -/
theorem isSplitForm_of_assemble {made : Nat} {blank d : δ} {c : Content}
    (hblank : m.newDraft made = .ok blank) (h : m.assemble settings handle blank = .ok d)
    (hc : m.content (m.sent d) = .ok c) : v.IsSplitForm settings handle c := by
  obtain ⟨d₁, hversion, h⟩ := ok_of_bind h
  obtain ⟨d₂, hkept, h⟩ := ok_of_bind h
  obtain ⟨d₃, hleaves, hmoves⟩ := ok_of_bind h
  have hdescribe := Medium.kept_eq_ok hkept
  obtain ⟨pages, hpages, hsound⟩ := Medium.addLeaves_eq_ok hleaves
  obtain ⟨b₃, hsplit, hpages₃, hrest₃⟩ := v.run_splitDocument hpages hsound ⟨d₂, []⟩
  obtain rfl := (hleaves ▸ yields_splitDocument m handle ⟨d₂, []⟩).draft_eq hsplit
  obtain ⟨b, hrepaginate, hpages', hrest⟩ := v.run_repaginate settings.repagination b₃
  obtain rfl := (hmoves ▸ yields_repaginate m settings.repagination b₃).draft_eq hrepaginate
  dsimp only at hpages₃ hrest₃
  rw [v.pages_describe hdescribe, v.pages_setVersion hversion, v.pages_newDraft hblank,
    List.nil_append] at hpages₃
  refine ⟨pages, _, _, hpages, v.halves_leaves pages, ?_,
    v.content_eq hblank hversion hdescribe (hrest.trans hrest₃) hc⟩
  rw [hpages', Repagination.map_some_arrange, hpages₃, Pages.length_leaves, List.length_map]

end DraftView

/-! ## Drafts that are as good as each other -/

namespace Medium

variable {m : Medium ρ σ κ δ}

/-- What the split document of a source is saved as, if it is made from the draft behind so many
others. -/
def form (m : Medium ρ σ κ δ) (settings : Settings ρ) (handle : σ) (made : Nat) :
    Except Failure Content := do
  let blank ← m.newDraft made
  let d ← m.assemble settings handle blank
  m.content (m.sent d)

theorem form_eq_ok {settings : Settings ρ} {handle : σ} {made : Nat} {c : Content} :
    m.form settings handle made = .ok c ↔ ∃ blank d, m.newDraft made = .ok blank ∧
      m.assemble settings handle blank = .ok d ∧ m.content (m.sent d) = .ok c := by
  constructor
  · intro h
    obtain ⟨blank, hblank, h⟩ := ok_of_bind h
    obtain ⟨d, hd, hc⟩ := ok_of_bind h
    exact ⟨blank, d, hblank, hd, hc⟩
  · rintro ⟨blank, d, hblank, hd, hc⟩
    rw [form, hblank, ok_bind, hd, ok_bind, hc]

/-- In an impartial medium a draft may be one that nothing can be saved from, but it does not matter
otherwise which draft a source is split into. -/
def Impartial (m : Medium ρ σ κ δ) : Prop :=
  ∀ {settings : Settings ρ} {handle handle' : σ} {made made' : Nat} {c c' : Content},
    m.form settings handle made = .ok c → m.form settings handle' made' = .ok c' →
      m.form settings handle made' = .ok c

end Medium

/-- All new drafts of document files are the same. -/
theorem Pdf.impartial_medium : Pdf.medium.Impartial := fun h _ => h

namespace Rehearsal

variable {plan : Plan}

/-- The draft with another fault to be saved with. -/
def Draft.faulty (fault : Option SaveFault) (d : Draft) : Draft := { d with saveFault := fault }

theorem moveAll_faulty (fault : Option SaveFault) :
    ∀ (moves : List Nat) (d : Draft), (medium plan).moveAll moves (d.faulty fault) =
      ((medium plan).moveAll moves d).map (Draft.faulty fault)
  | [], _ => rfl
  | p :: moves, d => by
    have hmove : Medium.kept ((medium plan).moveToEnd p (d.faulty fault)) =
        (Medium.kept ((medium plan).moveToEnd p d)).map (Draft.faulty fault) := by
      simp only [medium, Draft.moveToEnd, Draft.faulty]
      cases Pages.move (p : Int) d.pages <;> rfl
    unfold Medium.moveAll
    rw [hmove]
    rcases Medium.kept ((medium plan).moveToEnd p d) with _ | d'
    · rfl
    · exact moveAll_faulty fault moves d'

theorem addLeaves_faulty (fault : Option SaveFault) :
    ∀ (pages : List (Except Failure (SourcePage String))) (d : Draft),
      (medium plan).addLeaves pages (d.faulty fault) =
        ((medium plan).addLeaves pages d).map (Draft.faulty fault)
  | [], _ => rfl
  | .error _ :: _, _ => rfl
  | .ok p :: pages, d => by
    have hleaf : (medium plan).addLeaf p (d.faulty fault) =
        ((medium plan).addLeaf p d).map (Draft.faulty fault) := by
      unfold Medium.addLeaf
      cases p.box.split <;> rfl
    simp only [Medium.addLeaves, ok_bind, hleaf]
    rcases (medium plan).addLeaf p d with _ | d'
    · rfl
    · exact addLeaves_faulty fault pages d'

/-- The fault that a draft is to be saved with changes nothing before. -/
theorem assemble_faulty (fault : Option SaveFault) (settings : Settings Source) (handle : Source)
    (d : Draft) : (medium plan).assemble settings handle (d.faulty fault) =
      ((medium plan).assemble settings handle d).map (Draft.faulty fault) := by
  have hassemble : ∀ d : Draft, (medium plan).assemble settings handle d =
      ((medium plan).addLeaves ((medium plan).pages handle)
        { d with version := settings.version, title := some handle.name } >>= fun d =>
          (medium plan).moveAll (settings.repagination.moves ((medium plan).pageCount d)) d) :=
    fun _ => rfl
  have hdescribed : { d.faulty fault with version := settings.version, title := some handle.name } =
      Draft.faulty fault { d with version := settings.version, title := some handle.name } := rfl
  rw [hassemble, hassemble, hdescribed, addLeaves_faulty]
  rcases (medium plan).addLeaves ((medium plan).pages handle)
    { d with version := settings.version, title := some handle.name } with _ | d'
  · rfl
  · exact moveAll_faulty fault _ d'

/-- What a rehearsed source is saved as, if the draft is one that can be saved. -/
theorem form_eq_ok {settings : Settings Source} {handle : Source} {made : Nat} {c : Content} :
    (medium plan).form settings handle made = .ok c ↔
      (if plan.faultyDraft = made + 1 then plan.saveFault else none) = none ∧
        ∃ d, (medium plan).assemble settings handle (.empty none plan.stuck) = .ok d ∧
          c = .text d.text := by
  have hform : (medium plan).form settings handle made =
      ((medium plan).assemble settings handle (.empty none plan.stuck)).map
          (Draft.faulty (if plan.faultyDraft = made + 1 then plan.saveFault else none)) >>=
        (medium plan).content := by
    rw [← assemble_faulty]
    rfl
  rw [hform]
  rcases (medium plan).assemble settings handle (.empty none plan.stuck) with _ | d
  · simp [Except.map, bind, Except.bind]
  · rcases (if plan.faultyDraft = made + 1 then plan.saveFault else none) with _ | fault
    · have hcontent : (medium plan).content (d.faulty none) = .ok (.text d.text) := rfl
      simp only [Except.map, ok_bind, hcontent, Except.ok.injEq, exists_eq_left', true_and]
      exact eq_comm
    · have hcontent : (medium plan).content (d.faulty (some fault)) = .error fault.failure := rfl
      simp [Except.map, ok_bind, hcontent]

/-- Rehearsed drafts differ in the fault that they are to be saved with, if at all. -/
theorem impartial_medium (plan : Plan) : (medium plan).Impartial := by
  intro settings handle handle' made made' c c' h h'
  exact form_eq_ok.2 ⟨(form_eq_ok.1 h').1, (form_eq_ok.1 h).2⟩

end Rehearsal

end Folio
