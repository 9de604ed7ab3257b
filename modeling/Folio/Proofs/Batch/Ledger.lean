import Mathlib.Data.List.Forall2
import Folio.Batch.Run
import Folio.Proofs.Document.Assembling
import Folio.Proofs.Output.Buffers

/-!
# The ledger of a batch

What processing a source comes to, said without effects: `Ledger.enter` gives the ledger with the
source entered, or the first failure in the order of the work: opening, permission, the new draft,
version and description, the pages, their order, the buffer, saving, naming and registering. A
failure gives no ledger at all, so nothing has to be undone here; that the program undoes it is a
theorem (`run_processSource`).

A ledger is sound if its tree is the one before the batch with the registered buffers behind it.
-/

namespace Folio

variable {ρ σ κ δ : Type}

namespace Batch

open FileTree

/-- What a batch has done so far, as far as later sources can tell. -/
structure Ledger (σ : Type) where
  tree : FileTree
  /-- The number of the last temporary buffer. -/
  buffers : Nat
  registry : Registry
  /-- The sources that have been opened. -/
  handles : List σ

namespace Ledger

/-- The ledger before the first source. -/
def start (t : FileTree) (buffers : Nat) (overwrite : Bool) : Ledger σ :=
  ⟨t, buffers, .empty overwrite, []⟩

/-- The tree and the registry with a draft saved to its buffer and registered. -/
def stow (m : Medium ρ σ κ δ) (t : FileTree) (registry : Registry) (name : Except Failure String)
    (buffer : Path) (draft : δ) : Except Failure (String × FileTree × Registry) := do
  let tree ← m.save t buffer (m.sent draft)
  let name ← name
  let registry ← registry.add buffer name
  return (name, tree, registry)

/-- The ledger with the split document of a source saved to a new buffer and registered. -/
def deposit (m : Medium ρ σ κ δ) (settings : Settings ρ) (name : Except Failure String)
    (handle : σ) (draft : δ) (g : Ledger σ) : Except Failure (Ledger σ) := do
  let draft ← m.assemble settings handle draft
  let number := Store.nextNumber g.tree ".pdf" g.buffers
  let tree ← (g.tree.createFresh (Buffer.text number ".pdf")).mapError .file
  let (_, tree, registry) ← stow m tree g.registry name (.ofText (Buffer.text number ".pdf")) draft
  return { g with tree, buffers := number, registry }

/-- The ledger with a source entered. -/
def enter (m : Medium ρ σ κ δ) (namer : Namer) (settings : Settings ρ) (number : Int) (source : ρ)
    (g : Ledger σ) : Except Failure (Ledger σ) := do
  let handle ← m.openSource g.tree source
  m.ensure .copyAndExtract handle
  let draft ← m.newDraft g.handles.length
  let g ← g.deposit m settings (namer settings.pattern (m.name source) number) handle draft
  return { g with handles := g.handles ++ [handle] }

/-- The ledger with a list of sources entered, one after the other. -/
def enterAll (m : Medium ρ σ κ δ) (namer : Namer) (settings : Settings ρ) :
    Int → List ρ → Ledger σ → Except Failure (Ledger σ)
  | _, [], g => .ok g
  | number, source :: rest, g =>
    g.enter m namer settings number source >>= enterAll m namer settings (number + 1) rest

/-- A ledger is sound, seen from the tree before the batch: its tree is that one with the
registered buffers behind its entries, where nothing was. -/
structure Sound (t : FileTree) (g : Ledger σ) (files : List (Location × Content)) : Prop where
  tree : g.tree = t.withFiles files
  free : t.Free files
  buffers : Store.BuffersAt t g.registry.outputs files

theorem sound_start (t : FileTree) (buffers : Nat) (overwrite : Bool) :
    Sound t (start t buffers overwrite : Ledger σ) [] :=
  ⟨(withFiles_nil t).symm, .nil t, .nil⟩

end Ledger

/-! ## Entries -/

/-- A draft that has a content can be saved to a new buffer. -/
theorem save_of_content {m : Medium ρ σ κ δ} {t : FileTree} {buffer : Path} {l : Location}
    {c content : Content} {draft : δ} (hnames : t.Names buffer l) (hnone : t.get? l = none)
    (h : m.content draft = .ok content) :
    m.save (t.withFiles [(l, c)]) buffer draft = .ok (t.withFiles [(l, content)]) := by
  have hfree : t.Free [(l, c)] := ⟨by simp [hnames.ne_nil, hnone], by simp⟩
  have hdir : (t.withFiles [(l, c)]).isDirectory l = false := by
    rw [hfree.isDirectory_eq]
    simp [isDirectory, hnone]
  simp only [Medium.save, h, (hnames.mono hfree.directoriesKept).write hdir,
    put_withFiles_single hnames.ne_nil hnone]
  rfl

/-- A draft that is saved to a new buffer is what the buffer holds. -/
theorem save_ok {m : Medium ρ σ κ δ} {t tree : FileTree} {buffer : Path} {l : Location}
    {c : Content} {draft : δ} (hnames : t.Names buffer l) (hnone : t.get? l = none)
    (h : m.save (t.withFiles [(l, c)]) buffer draft = .ok tree) :
    ∃ content, m.content draft = .ok content ∧ tree = t.withFiles [(l, content)] := by
  cases hcontent : m.content draft with
  | error f =>
    rw [Medium.save, hcontent] at h
    cases h
  | ok content =>
    rw [save_of_content hnames hnone hcontent] at h
    cases h
    exact ⟨content, rfl, rfl⟩

/-- What a deposit adds: a buffer with the saved document where nothing was, registered under a name
that was free. -/
structure Deposited (m : Medium ρ σ κ δ) (settings : Settings ρ) (name : String) (handle : σ)
    (draft : δ) (g g' : Ledger σ) (buffer : Path) (l : Location) (c : Content) : Prop where
  content : ∃ d, m.assemble settings handle draft = .ok d ∧ m.content (m.sent d) = .ok c
  names : g.tree.Names buffer l
  get?_none : g.tree.get? l = none
  tree : g'.tree = g.tree.withFiles [(l, c)]
  registry : g.registry.add buffer name = .ok g'.registry
  handles : g'.handles = g.handles

theorem deposited_of_deposit {m : Medium ρ σ κ δ} {settings : Settings ρ}
    {name : Except Failure String} {handle : σ} {draft : δ} {g g' : Ledger σ}
    (h : g.deposit m settings name handle draft = .ok g') :
    ∃ n buffer l c, name = .ok n ∧ Deposited m settings n handle draft g g' buffer l c := by
  obtain ⟨d, hd, h⟩ := ok_of_bind h
  obtain ⟨fresh, hfresh, h⟩ := ok_of_bind h
  obtain ⟨⟨n, tree, registry⟩, hstow, h⟩ := ok_of_bind h
  cases h
  obtain ⟨_, htree, hstow⟩ := ok_of_bind hstow
  obtain ⟨_, hn, hstow⟩ := ok_of_bind hstow
  obtain ⟨_, hadd, hstow⟩ := ok_of_bind hstow
  cases hstow
  cases hcreate : g.tree.createFresh
      (Buffer.text (Store.nextNumber g.tree ".pdf" g.buffers) ".pdf") with
  | error e => rw [hcreate] at hfresh; cases hfresh
  | ok t =>
    rw [hcreate] at hfresh
    cases hfresh
    obtain ⟨l, hnames, hnone, rfl⟩ := createFresh_ok hcreate
    obtain ⟨c, hc, rfl⟩ := save_ok hnames hnone htree
    exact ⟨n, _, l, c, hn, ⟨d, hd, hc⟩, hnames, hnone, rfl, hadd, rfl⟩

/-- The number of the next buffer of a ledger. -/
def Ledger.number (g : Ledger σ) : Nat := Store.nextNumber g.tree ".pdf" g.buffers

/-- A split document is not deposited if there is no buffer to be had. -/
theorem deposit_of_refused {m : Medium ρ σ κ δ} {settings : Settings ρ}
    {name : Except Failure String} {handle : σ} {blank d : δ} {g : Ledger σ} {e : FileError}
    (hd : m.assemble settings handle blank = .ok d)
    (hcreate : g.tree.createFresh (Buffer.text g.number ".pdf") = .error e) :
    g.deposit m settings name handle blank = .error (.file e) := by
  unfold Ledger.number at hcreate
  simp only [Ledger.deposit, hd, hcreate, ok_bind]
  rfl

/-- A split document that can be saved is deposited in a new buffer, if there is a name for it that
is not taken. -/
theorem deposit_of_created {m : Medium ρ σ κ δ} {settings : Settings ρ}
    {name : Except Failure String} {handle : σ} {blank d : δ} {c : Content} {g : Ledger σ}
    {fresh : FileTree} (hd : m.assemble settings handle blank = .ok d)
    (hc : m.content (m.sent d) = .ok c)
    (hcreate : g.tree.createFresh (Buffer.text g.number ".pdf") = .ok fresh) :
    ∃ l, g.tree.Names (.ofText (Buffer.text g.number ".pdf")) l ∧ g.tree.get? l = none ∧
      g.deposit m settings name handle blank = (name >>= fun n =>
        (g.registry.add (.ofText (Buffer.text g.number ".pdf")) n).map fun registry =>
          { g with tree := g.tree.withFiles [(l, c)], buffers := g.number, registry }) := by
  obtain ⟨l, hnames, hnone, rfl⟩ := createFresh_ok hcreate
  refine ⟨l, hnames, hnone, ?_⟩
  have hsave := save_of_content (c := .text "") hnames hnone hc
  unfold Ledger.number at hcreate hsave ⊢
  simp only [Ledger.deposit, Ledger.stow, hd, hcreate, Except.mapError, hsave, ok_bind]
  rcases name with f | n
  · rfl
  · simp only [ok_bind]
    cases g.registry.add (.ofText (Buffer.text (Store.nextNumber g.tree ".pdf" g.buffers) ".pdf"))
      n <;> rfl

/-- A deposit has made the next buffer. -/
theorem created_of_deposit {m : Medium ρ σ κ δ} {settings : Settings ρ}
    {name : Except Failure String} {handle : σ} {blank : δ} {g g' : Ledger σ}
    (h : g.deposit m settings name handle blank = .ok g') :
    ∃ fresh l c, g.tree.createFresh (Buffer.text g.number ".pdf") = .ok fresh ∧
      g.tree.Names (.ofText (Buffer.text g.number ".pdf")) l ∧
      g'.tree = g.tree.withFiles [(l, c)] ∧ g'.buffers = g.number ∧ g'.handles = g.handles := by
  obtain ⟨_, _, _, c, -, hdep⟩ := deposited_of_deposit h
  obtain ⟨d, hd, hc⟩ := hdep.content
  cases hcreate : g.tree.createFresh (Buffer.text g.number ".pdf") with
  | error e =>
    rw [deposit_of_refused hd hcreate] at h
    cases h
  | ok fresh =>
    obtain ⟨l, hnames, -, hdeposit⟩ := deposit_of_created hd hc hcreate
    rw [hdeposit] at h
    obtain ⟨n, -, h⟩ := ok_of_bind h
    cases hadd : g.registry.add (.ofText (Buffer.text g.number ".pdf")) n with
    | error f =>
      rw [hadd] at h
      cases h
    | ok registry =>
      rw [hadd] at h
      cases h
      exact ⟨fresh, l, c, rfl, hnames, rfl, rfl, rfl⟩

/-- What an entry adds: an opened source that grants copying, and its deposit. -/
theorem deposited_of_enter {m : Medium ρ σ κ δ} {namer : Namer} {settings : Settings ρ}
    {number : Int} {source : ρ} {g g' : Ledger σ}
    (h : g.enter m namer settings number source = .ok g') :
    ∃ handle draft name buffer l c g₁, m.openSource g.tree source = .ok handle ∧
      m.ensure .copyAndExtract handle = .ok () ∧ m.newDraft g.handles.length = .ok draft ∧
      namer settings.pattern (m.name source) number = .ok name ∧
      Deposited m settings name handle draft g g₁ buffer l c ∧
      g' = { g₁ with handles := g.handles ++ [handle] } := by
  obtain ⟨handle, hopen, h⟩ := ok_of_bind h
  obtain ⟨⟨⟩, hensure, h⟩ := ok_of_bind h
  obtain ⟨draft, hdraft, h⟩ := ok_of_bind h
  obtain ⟨g₁, hdeposit, h⟩ := ok_of_bind h
  cases h
  obtain ⟨name, buffer, l, c, hname, hdep⟩ := deposited_of_deposit hdeposit
  exact ⟨handle, draft, name, buffer, l, c, g₁, hopen, hensure, hdraft, hname, hdep,
    by rw [hdep.handles]⟩

/-- A free list of files stays free with one more where nothing was. -/
theorem free_concat {t : FileTree} {files : List (Location × Content)} {l : Location} {c : Content}
    (h : t.Free files) (hl : l ≠ []) (hnone : (t.withFiles files).get? l = none) :
    t.Free (files ++ [(l, c)]) := by
  have hget := h.get?_eq l
  rw [hnone] at hget
  have hlookup : files.lookup l = none := by
    cases hf : files.lookup l with
    | none => rfl
    | some x => rw [hf] at hget; cases hget
  have hl' : l ∉ files.map Prod.fst := by
    intro hmem
    obtain ⟨x, hx, rfl⟩ := List.mem_map.1 hmem
    rw [List.lookup_eq_none_iff] at hlookup
    simpa using hlookup x hx
  rw [hlookup] at hget
  constructor
  · intro k hk
    rw [List.map_append, List.mem_append] at hk
    rcases hk with hk | hk
    · exact h.get?_none k hk
    · rw [List.mem_singleton.1 hk]
      exact ⟨hl, hget.symm⟩
  · rw [List.map_append, List.nodup_append]
    refine ⟨h.nodup, by simp, fun a ha b hb hab => hl' ?_⟩
    rwa [hab, List.mem_singleton.1 hb] at ha

/-- A sound ledger stays sound with one more deposit. -/
theorem Deposited.sound {m : Medium ρ σ κ δ} {settings : Settings ρ} {name : String} {handle : σ}
    {draft : δ} {g g' : Ledger σ} {buffer : Path} {l : Location} {c : Content} {t : FileTree}
    {files : List (Location × Content)}
    (h : Deposited m settings name handle draft g g' buffer l c) (hg : g.Sound t files) :
    g'.Sound t (files ++ [(l, c)]) where
  tree := by rw [h.tree, hg.tree, withFiles_append]
  free := free_concat hg.free h.names.ne_nil (hg.tree ▸ h.get?_none)
  buffers := by
    have houtputs : g'.registry.outputs = g.registry.outputs ++ [(name, buffer)] := by
      rw [(Registry.add_eq_ok.1 h.registry).2]
    have hnames : t.Names buffer l := (hg.tree ▸ h.names).mono hg.free.directoriesKept_back
    rw [houtputs]
    exact List.rel_append hg.buffers (.cons hnames .nil)

/-- Entering a source keeps a ledger sound. -/
theorem Ledger.Sound.enter {m : Medium ρ σ κ δ} {namer : Namer} {settings : Settings ρ}
    {number : Int} {source : ρ} {g g' : Ledger σ} {t : FileTree}
    {files : List (Location × Content)} (hg : g.Sound t files)
    (h : g.enter m namer settings number source = .ok g') :
    ∃ l c, g'.Sound t (files ++ [(l, c)]) := by
  obtain ⟨_, _, _, _, l, c, _, _, _, _, _, hdep, rfl⟩ := deposited_of_enter h
  have := hdep.sound hg
  exact ⟨l, c, this.tree, this.free, this.buffers⟩

/-- Entering a list of sources keeps a ledger sound. -/
theorem Ledger.Sound.enterAll {m : Medium ρ σ κ δ} {namer : Namer} {settings : Settings ρ}
    {t : FileTree} :
    ∀ {sources : List ρ} {number : Int} {g g' : Ledger σ} {files : List (Location × Content)},
      g.Sound t files → g.enterAll m namer settings number sources = .ok g' →
      ∃ files', g'.Sound t files'
  | [], _, _, _, files, hg, h => by
    cases h
    exact ⟨files, hg⟩
  | _ :: _, _, _, _, _, hg, h => by
    obtain ⟨_, henter, h⟩ := ok_of_bind h
    obtain ⟨_, _, hg⟩ := hg.enter henter
    exact hg.enterAll h

/-- Behind a source that can be entered the rest of the sources is entered. -/
theorem Ledger.enterAll_cons {m : Medium ρ σ κ δ} {namer : Namer} {settings : Settings ρ}
    {number : Int} {source : ρ} {g g' : Ledger σ}
    (h : g.enter m namer settings number source = .ok g') (rest : List ρ) :
    g.enterAll m namer settings number (source :: rest) =
      g'.enterAll m namer settings (number + 1) rest := by
  rw [enterAll, h, ok_bind]

/-- A source that cannot be entered is the end of it. -/
theorem Ledger.enterAll_cons_error {m : Medium ρ σ κ δ} {namer : Namer} {settings : Settings ρ}
    {number : Int} {source : ρ} {g : Ledger σ} {f : Failure}
    (h : g.enter m namer settings number source = .error f) (rest : List ρ) :
    g.enterAll m namer settings number (source :: rest) = .error f := by
  rw [enterAll, h]
  rfl

/-- Sources cannot all be entered if, behind some of them, the next one cannot. -/
theorem Ledger.enterAll_eq_error {m : Medium ρ σ κ δ} {namer : Namer} {settings : Settings ρ}
    {f : Failure} :
    ∀ {sources : List ρ} {number : Int} {g : Ledger σ},
      g.enterAll m namer settings number sources = .error f ↔
        ∃ before source after g', sources = before ++ source :: after ∧
          g.enterAll m namer settings number before = .ok g' ∧
          g'.enter m namer settings (number + before.length) source = .error f
  | [], _, _ => by simp [enterAll]
  | source :: rest, number, g => by
    constructor
    · intro h
      rcases error_of_bind h with h | ⟨g₁, henter, h⟩
      · exact ⟨[], source, rest, g, rfl, rfl, by simpa using h⟩
      · obtain ⟨before, next, after, g', rfl, hbefore, hnext⟩ := enterAll_eq_error.1 h
        refine ⟨source :: before, next, after, g', rfl, ?_, ?_⟩
        · rwa [enterAll_cons henter]
        · rwa [List.length_cons, Int.natCast_succ, Int.add_comm (before.length : Int),
            ← Int.add_assoc]
    · rintro ⟨before, next, after, g', hsources, hbefore, hnext⟩
      cases before with
      | nil =>
        cases hsources
        cases hbefore
        rw [List.length_nil, Int.natCast_zero, Int.add_zero] at hnext
        exact enterAll_cons_error hnext _
      | cons first before =>
        cases hsources
        obtain ⟨g₁, henter, hbefore⟩ := ok_of_bind hbefore
        rw [List.length_cons, Int.natCast_succ, Int.add_comm (before.length : Int),
          ← Int.add_assoc] at hnext
        rw [enterAll_cons henter]
        exact enterAll_eq_error.2 ⟨before, next, after, g', rfl, hbefore, hnext⟩

/-- Every source that is entered has been opened, one after the other. -/
theorem Ledger.handles_of_enterAll {m : Medium ρ σ κ δ} {namer : Namer} {settings : Settings ρ} :
    ∀ {sources : List ρ} {number : Int} {g g' : Ledger σ},
      g.enterAll m namer settings number sources = .ok g' →
      ∃ handles, g'.handles = g.handles ++ handles ∧
        List.Forall₂ (fun source handle => ∃ t, m.openSource t source = .ok handle) sources handles
  | [], _, _, _, h => by
    cases h
    exact ⟨[], (List.append_nil _).symm, .nil⟩
  | _ :: _, _, _, _, h => by
    obtain ⟨g₁, henter, h⟩ := ok_of_bind h
    obtain ⟨handle, _, _, _, _, _, _, hopen, -, -, -, -, rfl⟩ := deposited_of_enter henter
    obtain ⟨handles, hhandles, hforall⟩ := handles_of_enterAll h
    refine ⟨handle :: handles, ?_, .cons ⟨_, hopen⟩ hforall⟩
    rw [hhandles, List.append_assoc]
    rfl

end Batch

end Folio
