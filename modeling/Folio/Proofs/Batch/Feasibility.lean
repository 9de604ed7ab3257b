import Folio.Proofs.Batch.Delivery
import Folio.Proofs.Document.Opening
import Folio.Proofs.FileTree.Refilling

/-!
# What a batch needs

A batch whose outputs replace nothing succeeds if, and only if, there is what it needs
(`isOk_run_iff`): sources that can be opened, copied and split, distinct names, room for the
temporary buffers, a notifier that goes along, an output directory that can be made, and a free
place in it for every name. All of this is told from the tree before the batch and from `reserved`,
the tree with the buffers left empty, so that a run is not needed to say it. The tree that a
successful run leaves is told in the same way (`leaves_of_run`).

A source must not be one of the buffers of its own batch: that would be opened if it came late
enough, and not at first (`Apart`).
-/

namespace Folio

open FileTree

/-- The tree with a number of temporary buffers made one after the other and left empty. -/
def Store.reserved (t : FileTree) (buffers : Nat) : Nat → Except FileError FileTree
  | 0 => .ok t
  | count + 1 => do
    let number := nextNumber t ".pdf" buffers
    let t ← t.createFresh (Buffer.text number ".pdf")
    reserved t number count

namespace Batch

variable {ρ σ κ δ : Type} {m : Medium ρ σ κ δ} {namer : Namer} {notifier : Notifier}
  {settings : Settings ρ} {output : Path} {store : Store} {time : Instant}

/-- A source that can be opened when temporary buffers of the batch are there can be opened before
the batch. -/
def Apart (m : Medium ρ σ κ δ) (settings : Settings ρ) (store : Store) : Prop :=
  ∀ ⦃τ⦄, Store.reserved store.tree store.buffers settings.sources.length = .ok τ →
    ∀ source ∈ settings.sources, ∀ ⦃files handle⦄, store.tree.Free files →
      (∀ x ∈ files, τ.has x.1 = true) →
      m.openSource (store.tree.withFiles files) source = .ok handle →
      m.openSource store.tree source = .ok handle

/-- Rehearsed sources do not lie in the tree. -/
theorem apart_rehearsal (plan : Rehearsal.Plan) (settings : Settings Rehearsal.Source)
    (store : Store) : Apart (Rehearsal.medium plan) settings store :=
  fun _ _ _ _ _ _ _ _ hopen => hopen

/-- Document files that can be read before the batch are none of its buffers. -/
theorem apart_of_read {settings : Settings Pdf.Source}
    (h : ∀ source ∈ settings.sources, ∃ c, store.tree.read source.path = .ok c) :
    Apart Pdf.medium settings store := by
  intro _ _ source hsource files handle hfree _ hopen
  obtain ⟨c, hread⟩ := h source hsource
  obtain ⟨file, hread', hunlock⟩ := Pdf.openIn_eq_ok.1 hopen
  cases (hfree.read hread).symm.trans hread'
  exact Pdf.openIn_eq_ok.2 ⟨file, hread, hunlock⟩

/-- A source can be opened in a tree and copied, and split into the draft behind so many others it
is saved as a content. -/
structure SplitsInto (m : Medium ρ σ κ δ) (settings : Settings ρ) (t : FileTree) (source : ρ)
    (made : Nat) (handle : σ) (c : Content) : Prop where
  opened : m.openSource t source = .ok handle
  granted : m.ensure .copyAndExtract handle = .ok ()
  form : m.form settings handle made = .ok c

/-! ## Entering sources -/

section
variable {t τ τ' : FileTree} {g g' : Ledger σ} {files : List (Location × Content)}

/-- A source that is entered takes the next buffer that is reserved, and grants copying. -/
theorem reserved_of_enter {number : Int} {source : ρ} {f : Location → Content → Content}
    (hg : g.tree = τ.refill f) (h : g.enter m namer settings number source = .ok g') :
    ∃ τ' f', τ.createFresh (Buffer.text (Store.nextNumber τ ".pdf" g.buffers) ".pdf") = .ok τ' ∧
      g'.tree = τ'.refill f' ∧ g'.buffers = Store.nextNumber τ ".pdf" g.buffers ∧
      ∃ handle, m.ensure .copyAndExtract handle = .ok () ∧ g'.handles = g.handles ++ [handle] := by
  obtain ⟨handle, -, h⟩ := ok_of_bind h
  obtain ⟨⟨⟩, hgrants, h⟩ := ok_of_bind h
  obtain ⟨blank, -, h⟩ := ok_of_bind h
  obtain ⟨g₁, hdeposit, h⟩ := ok_of_bind h
  cases h
  obtain ⟨fresh, l, c, hcreate, hnames, htree, hbuffers, hhandles⟩ := created_of_deposit hdeposit
  have hnumber : g.number = Store.nextNumber τ ".pdf" g.buffers := by
    rw [Ledger.number, hg, Store.nextNumber_refill]
  rw [hnumber] at hcreate hnames hbuffers
  obtain ⟨τ', hcreate'⟩ := createFresh_refill_iff.1 ⟨fresh, hg ▸ hcreate⟩
  obtain ⟨l', hnames', hnone', rfl⟩ := createFresh_ok hcreate'
  obtain rfl : l' = l := (names_refill.1 (hg ▸ hnames)).unique hnames'
  obtain ⟨f', hf'⟩ := exists_refill_withFiles (f := f) hnames'.ne_nil hnone' c (.text "")
  refine ⟨_, f', hcreate', ?_, hbuffers, handle, hgrants, by rw [hhandles]⟩
  rw [htree, hg, hf']

/-- Sources that are entered take one reserved buffer each, and all of them grant copying. -/
theorem reserved_of_enterAll :
    ∀ {sources : List ρ} {number : Int} {τ : FileTree} {g g' : Ledger σ}
      {f : Location → Content → Content}, g.tree = τ.refill f →
      g.enterAll m namer settings number sources = .ok g' →
      (∃ τ' f', Store.reserved τ g.buffers sources.length = .ok τ' ∧ g'.tree = τ'.refill f') ∧
        ∃ handles, g'.handles = g.handles ++ handles ∧
          ∀ handle ∈ handles, m.ensure .copyAndExtract handle = .ok ()
  | [], _, τ, _, _, f, hg, h => by
    cases h
    exact ⟨⟨τ, f, rfl, hg⟩, [], (List.append_nil _).symm, fun _ h => nomatch h⟩
  | _ :: _, _, _, _, _, _, hg, h => by
    obtain ⟨g₁, henter, h⟩ := ok_of_bind h
    obtain ⟨τ₁, f₁, hcreate, hg₁, hbuffers, handle, hgrants, hhandles⟩ :=
      reserved_of_enter hg henter
    obtain ⟨⟨τ', f', hreserved, hg'⟩, handles, hhandles', hall⟩ := reserved_of_enterAll hg₁ h
    refine ⟨⟨τ', f', ?_, hg'⟩, handle :: handles, ?_, List.forall_mem_cons.2 ⟨hgrants, hall⟩⟩
    · rw [hbuffers] at hreserved
      rw [List.length_cons, Store.reserved, hcreate, ok_bind, hreserved]
    · rw [hhandles', hhandles, List.append_assoc]
      rfl

/-- A source can be entered in a sound ledger, if it can be opened before the batch, copied and
split, and if there is a buffer and a name for it. -/
theorem exists_enter {number : Int} {source : ρ} {handle : σ} {c : Content} {name : String}
    {f : Location → Content → Content} (hm : m.Guarded) (hsound : g.Sound t files)
    (hg : g.tree = τ.refill f)
    (hcreate : τ.createFresh (Buffer.text (Store.nextNumber τ ".pdf" g.buffers) ".pdf") = .ok τ')
    (hsplits : SplitsInto m settings t source g.handles.length handle c)
    (hname : namer settings.pattern (m.name source) number = .ok name)
    (hnew : name ∉ g.registry.names) :
    ∃ g', g.enter m namer settings number source = .ok g' ∧
      g'.registry.names = g.registry.names ++ [name] ∧
      g'.handles.length = g.handles.length + 1 := by
  obtain ⟨blank, d, hblank, hd, hc⟩ := Medium.form_eq_ok.1 hsplits.form
  have hopen : m.openSource g.tree source = .ok handle :=
    hsound.tree ▸ hm.openSource_withFiles hsound.free hsplits.opened
  have hnumber : g.number = Store.nextNumber τ ".pdf" g.buffers := by
    rw [Ledger.number, hg, Store.nextNumber_refill]
  obtain ⟨fresh, hcreate'⟩ := createFresh_refill_iff (f := f).2 ⟨τ', hcreate⟩
  rw [← hg, ← hnumber] at hcreate'
  obtain ⟨l, -, -, hdeposit⟩ := deposit_of_created hd hc hcreate'
  have hadd : g.registry.add (.ofText (Buffer.text g.number ".pdf")) name = .ok _ :=
    Registry.add_eq_ok.2 ⟨hnew, rfl⟩
  refine ⟨{ g with
    tree := g.tree.withFiles [(l, c)]
    buffers := g.number
    registry := _
    handles := g.handles ++ [handle] }, ?_, Registry.names_add hadd, by simp⟩
  rw [Ledger.enter, hopen, ok_bind, hsplits.granted, ok_bind, hblank, ok_bind, hname, hdeposit,
    ok_bind, hadd]
  rfl

/-- **Sources can be entered** if each of them can be split, the buffers can be reserved and all
names are new. The induction is on the sources; that the tree of the ledger is the reserved one but
for what files hold is what it carries along. -/
theorem exists_enterAll (hm : m.Guarded) :
    ∀ {sources : List ρ} {number : Int} {τ τ' : FileTree} {g : Ledger σ}
      {files : List (Location × Content)} {f : Location → Content → Content},
      g.Sound t files → g.tree = τ.refill f →
      Store.reserved τ g.buffers sources.length = .ok τ' →
      (∀ i source, sources[i]? = some source →
        ∃ handle c, SplitsInto m settings t source (g.handles.length + i) handle c) →
      (g.registry.names ++ sources.mapIdx fun i source =>
        Naming.outputName settings.pattern ⟨m.name source, number + i, time⟩).Nodup →
      ∃ g', g.enterAll m (namerAt time) settings number sources = .ok g'
  | [], _, _, _, g, _, _, _, _, _, _, _ => ⟨g, rfl⟩
  | source :: sources, number, τ, τ', g, files, f, hsound, hg, hreserved, hsplits, hnodup => by
    rw [List.length_cons, Store.reserved] at hreserved
    obtain ⟨τ₁, hcreate, hreserved⟩ := ok_of_bind hreserved
    obtain ⟨handle, c, hfirst⟩ := hsplits 0 source rfl
    rw [List.mapIdx_cons] at hnodup
    have hnew : Naming.outputName settings.pattern ⟨m.name source, number, time⟩ ∉
        g.registry.names := by
      intro hmem
      have := (List.nodup_append.1 hnodup).2.2 _ hmem _ List.mem_cons_self
      simp at this
    have hname : namerAt time settings.pattern (m.name source) number =
        .ok (Naming.outputName settings.pattern ⟨m.name source, number, time⟩) := rfl
    obtain ⟨g₁, henter, hnames, hhandles⟩ := exists_enter hm hsound hg hcreate hfirst hname hnew
    obtain ⟨τ₂, f', hcreate', hg₁, hbuffers, -⟩ := reserved_of_enter hg henter
    cases hcreate.symm.trans hcreate'
    obtain ⟨l, c', hsound₁⟩ := hsound.enter henter
    rw [Ledger.enterAll_cons henter]
    refine exists_enterAll hm hsound₁ hg₁ (hbuffers ▸ hreserved) (fun i next hi => ?_) ?_
    · obtain ⟨handle', c'', hnext⟩ := hsplits (i + 1) next hi
      exact ⟨handle', c'', by rwa [hhandles, Nat.add_right_comm, Nat.add_assoc]⟩
    · rw [hnames, List.append_assoc]
      simpa [Int.add_assoc, Int.add_comm, Int.add_left_comm] using hnodup

end

/-! ## Batches that succeed -/

/-- What a batch needs to succeed if its outputs may replace nothing, told from the tree before it
and from the tree `τ` with its buffers left empty. -/
structure Feasible (m : Medium ρ σ κ δ) (time : Instant) (notifier : Notifier)
    (settings : Settings ρ) (output : Path) (store : Store) (τ : FileTree) : Prop where
  reserved : Store.reserved store.tree store.buffers settings.sources.length = .ok τ
  splits : ∀ i source, settings.sources[i]? = some source →
    ∃ handle c, SplitsInto m settings store.tree source i handle c
  nodup : (outputNames m time settings).Nodup
  notified : ∀ i < settings.sources.length,
    (notifier ((i : Nat) + 1) settings.sources.length).2 = .ok ()
  made : (τ.makeDirectories output).1 = .ok ()
  free : ∀ name ∈ outputNames m time settings,
    (τ.makeDirectories output).2.pathExists (Registry.target output name) = .ok false
  named : ∀ name ∈ outputNames m time settings,
    ∃ l, (τ.makeDirectories output).2.Names (Registry.target output name) l

section
variable {p : Progress} {s : State σ δ} {g : Ledger σ} {items : List Pending} {τ : FileTree}
  {f : Location → Content → Content}

/-- The buffers of a batch that comes to its commit are those that were reserved. -/
theorem AtCommit.reserved {files : List (Location × Content)}
    (h : AtCommit m namer notifier settings store p s g files) :
    (∃ τ f, Store.reserved store.tree store.buffers settings.sources.length = .ok τ ∧
        s.store.tree = τ.refill f) ∧
      ∀ handle ∈ g.handles, m.ensure .copyAndExtract handle = .ok () := by
  obtain ⟨⟨τ, f, hreserved, hg⟩, handles, hhandles, hgrants⟩ :=
    reserved_of_enterAll (refill_self store.tree).symm h.entered
  exact ⟨⟨τ, f, hreserved, h.agrees.tree.trans hg⟩, hhandles ▸ hgrants⟩

/-- Where a batch makes its buffers is known from the reserved tree. -/
theorem AtCommit.mem_location_iff
    (h : AtCommit m namer notifier settings store p s g (items.map Pending.file))
    (htree : s.store.tree = τ.refill f) {l : Location} :
    l ∈ items.map Pending.location ↔ τ.has l = true ∧ store.tree.has l = false := by
  have hhas : τ.has l = (store.tree.withFiles (items.map Pending.file)).has l := by
    rw [← h.sound.tree, ← h.agrees.tree, htree, has_refill]
  rw [hhas, ← map_fst_file]
  constructor
  · intro hl
    obtain ⟨x, hx, rfl⟩ := List.mem_map.1 hl
    refine ⟨has_iff.2 ⟨_, h.sound.free.get?_of_mem hx⟩, ?_⟩
    rw [has, (h.sound.free.get?_none _ hl).2]
    rfl
  · rintro ⟨hthere, hnot⟩
    by_contra hl
    rw [has, h.sound.free.get?_of_notMem hl] at hthere
    exact Bool.false_ne_true (hnot.symm.trans hthere)

/-- What a source is split into in a batch that comes to its commit. -/
theorem AtCommit.splitsInto (h : AtCommit m namer notifier settings store p s g
      (items.map Pending.file))
    (hitems : Entered m namer settings store.tree settings.sources g items)
    (hapart : Apart m settings store) {i : Nat} {source : ρ}
    (hi : settings.sources[i]? = some source) :
    ∃ handle x, items[i]? = some x ∧
      namer settings.pattern (m.name source) (i + 1) = .ok x.name ∧
      SplitsInto m settings store.tree source i handle x.content := by
  obtain ⟨⟨τ, f, hreserved, htree⟩, hgrants⟩ := h.reserved
  obtain ⟨handle, x, hhandle, hx, hentry⟩ := hitems.entries hi
  have hlength : (items.take i).length = i := by
    rw [List.length_take]
    have := (List.getElem?_eq_some_iff.1 hx).1
    omega
  have hname := hentry.name
  have hform := Medium.form_eq_ok.2 hentry.content
  rw [hlength] at hname hform
  refine ⟨handle, x, hx, hname, ?_, hgrants _ (List.mem_of_getElem? hhandle), hform⟩
  have hsub : ((items.take i).map Pending.file).Sublist (items.map Pending.file) :=
    (List.take_sublist i items).map _
  refine hapart hreserved source (List.mem_of_getElem? hi) (h.sound.free.sublist hsub) ?_
    hentry.opened
  intro y hy
  have hmem : y.1 ∈ items.map Pending.location := by
    rw [← map_fst_file]
    exact List.mem_map_of_mem (hsub.subset hy)
  exact ((h.mem_location_iff htree).1 hmem).1

/-- What is registered when a batch comes to its commit. -/
theorem AtCommit.registry
    (h : AtCommit m (namerAt time) notifier settings store p s g (items.map Pending.file))
    (hitems : Entered m (namerAt time) settings store.tree settings.sources g items) :
    s.store.registry.outputs = items.map Pending.output ∧
      s.store.registry.overwrite = settings.overwrite ∧
      s.store.registry.names = outputNames m time settings := by
  rw [h.agrees.registry]
  refine ⟨hitems.outputs, hitems.overwrite, ?_⟩
  rw [Registry.names, hitems.outputs, List.map_map, ← hitems.map_name]
  rfl

/-- A batch that succeeds has had what it needs. -/
theorem AtCommit.feasible {st : Store}
    (h : AtCommit m (namerAt time) notifier settings store p s g (items.map Pending.file))
    (hitems : Entered m (namerAt time) settings store.tree settings.sources g items)
    (ht : store.tree.WellFormed) (hapart : Apart m settings store)
    (hoverwrite : settings.overwrite = false)
    (hreserved : Store.reserved store.tree store.buffers settings.sources.length = .ok τ)
    (htree : s.store.tree = τ.refill f)
    (hcommit : (Store.commit output).run s.store = (.ok (), st)) :
    Feasible m time notifier settings output store τ := by
  obtain ⟨houtputs, hkeeps, hregistry⟩ := h.registry hitems
  rw [hoverwrite] at hkeeps
  have hwait : ∀ x ∈ items, x.WaitsIn s.store.tree := h.agrees.tree ▸ hitems.waitsIn
  have hnodup : (items.map Pending.location).Nodup := map_fst_file items ▸ h.sound.free.nodup
  obtain ⟨-, hcleared, hlength, -⟩ :=
    Store.carried_of_run (h.wellFormed ht) houtputs hwait hnodup hcommit
  obtain ⟨-, hnamed⟩ := landings_named (h.makes ht output).wellFormed
    (fun x hx => Store.waitsIn_makeDirectories (h.wellFormed ht) output (hwait x hx)) hnodup
    (hcleared.unobstructed (h.wellFormed ht) houtputs hkeeps) hlength
  have hfree := (Store.existingTargets_eq_nil _).1 (hcleared.targets hkeeps)
  have hmade := hcleared.made
  rw [htree, makeDirectories_refill] at hfree hnamed hmade
  rw [hregistry] at hfree
  refine ⟨hreserved, fun i source hi => ?_, hitems.map_name ▸ hitems.nodup, fun i hi => ?_, hmade,
    fun name hname => ?_, fun name hname => ?_⟩
  · obtain ⟨handle, x, -, -, hsplits⟩ := h.splitsInto hitems hapart hi
    exact ⟨handle, x.content, hsplits⟩
  · have hok := ((isOk_processAll_iff notifier (agrees_begun settings store)
      (p := ⟨settings.sources.length, 0⟩) (by dsimp only; omega)).1
      (by rw [h.processed]; rfl)).2 i hi
    rwa [Int.zero_add, Int.add_comm] at hok
  · exact (pathExists_refill _).symm.trans (hfree name hname)
  · obtain ⟨x, hx, rfl⟩ := List.mem_map.1 (hitems.map_name ▸ hname)
    exact ⟨_, names_refill.1 (hnamed x hx)⟩

/-- A batch that has what it needs comes to the end of its sources. -/
theorem Feasible.exists_enterAll (h : Feasible m time notifier settings output store τ)
    (hm : m.Guarded) :
    ∃ g, (Ledger.begun settings store).enterAll m (namerAt time) settings 1 settings.sources =
      .ok g := by
  refine Batch.exists_enterAll hm (Ledger.sound_start ..) (refill_self store.tree).symm h.reserved
    (fun i source hi => ?_) ?_
  · rw [show (Ledger.begun settings store : Ledger σ).handles.length + i = i from Nat.zero_add i]
    exact h.splits i source hi
  · show (List.mapIdx _ settings.sources).Nodup
    simpa only [outputNames, Int.add_comm] using h.nodup

/-- A commit that finds what it needs goes on to move the buffers. -/
theorem AtCommit.cleared
    (h : AtCommit m (namerAt time) notifier settings store p s g (items.map Pending.file))
    (hitems : Entered m (namerAt time) settings store.tree settings.sources g items)
    (htree : s.store.tree = τ.refill f)
    (hfeasible : Feasible m time notifier settings output store τ) :
    Store.Cleared output s.store := by
  obtain ⟨-, -, hregistry⟩ := h.registry hitems
  constructor
  · rw [htree, makeDirectories_refill]
    exact hfeasible.made
  · intro _
    rw [Store.existingTargets_eq_nil, htree, makeDirectories_refill, hregistry]
    exact fun name hname => (pathExists_refill _).trans (hfeasible.free name hname)

/-- A commit that finds what it needs succeeds. -/
theorem AtCommit.run_commit
    (h : AtCommit m (namerAt time) notifier settings store p s g (items.map Pending.file))
    (hitems : Entered m (namerAt time) settings store.tree settings.sources g items)
    (ht : store.tree.WellFormed) (hoverwrite : settings.overwrite = false)
    (htree : s.store.tree = τ.refill f)
    (hfeasible : Feasible m time notifier settings output store τ) :
    ∃ st, (Store.commit output).run s.store = (.ok (), st) := by
  obtain ⟨houtputs, hkeeps, -⟩ := h.registry hitems
  rw [hoverwrite] at hkeeps
  have hcleared := h.cleared hitems htree hfeasible
  have hwell := h.wellFormed ht
  have hwait : ∀ x ∈ items, x.WaitsIn (s.store.tree.makeDirectories output).2 := fun x hx =>
    Store.waitsIn_makeDirectories hwell output (h.agrees.tree ▸ hitems.waitsIn x hx)
  have hnamed : ∀ x ∈ items, ∃ l, (s.store.tree.makeDirectories output).2.Names
      (Registry.target output x.name) l := by
    intro x hx
    obtain ⟨l, hl⟩ := hfeasible.named x.name (hitems.map_name ▸ List.mem_map_of_mem hx)
    rw [htree, makeDirectories_refill]
    exact ⟨l, names_refill.2 hl⟩
  obtain ⟨st, hmoves⟩ := Store.run_moveAll_of_names output
    (s := { s.store with tree := (s.store.tree.makeDirectories output).2 })
    ⟨(h.makes ht output).wellFormed, hwait, map_fst_file items ▸ h.sound.free.nodup,
      hcleared.unobstructed hwell houtputs hkeeps⟩ hnamed
  rw [Store.run_commit_of_cleared hcleared, houtputs, Step.run_bind_ok hmoves]
  exact ⟨_, rfl⟩

/-- A batch that has what it needs succeeds. -/
theorem run_of_feasible (hm : m.Guarded) (ht : store.tree.WellFormed)
    (hoverwrite : settings.overwrite = false) (hvalid : settings.validate = .ok output)
    (hfeasible : Feasible m time notifier settings output store τ) :
    ((run m (namerAt time) notifier settings).run (.start store)).1.isOk = true := by
  have hprocess := (isOk_processAll_iff notifier (agrees_begun settings store)
    (p := ⟨settings.sources.length, 0⟩) (by dsimp only; omega)).2
      ⟨hfeasible.exists_enterAll hm, fun i hi => by
        rw [Int.zero_add, Int.add_comm]
        exact hfeasible.notified i hi⟩
  obtain ⟨p, s, g, files, h⟩ := exists_atCommit hprocess
  obtain ⟨items, hitems, h⟩ := h.exists_entered
  obtain ⟨⟨τ', f, hreserved, htree⟩, -⟩ := h.reserved
  cases hfeasible.reserved.symm.trans hreserved
  obtain ⟨st, hcommit⟩ := h.run_commit hitems ht hoverwrite htree hfeasible
  have hbody := run_processAndCommit output h.processed
  rw [hcommit] at hbody
  obtain ⟨log, hrun⟩ := run_of_ok hvalid hbody
  rw [hrun]
  rfl

/-- **When a batch succeeds**: if its settings are proper and it has what it needs. -/
theorem isOk_run_iff (hm : m.Guarded) (ht : store.tree.WellFormed)
    (hoverwrite : settings.overwrite = false) (hapart : Apart m settings store) :
    ((run m (namerAt time) notifier settings).run (.start store)).1.isOk = true ↔
      ∃ output τ, settings.validate = .ok output ∧
        Feasible m time notifier settings output store τ := by
  constructor
  · intro hok
    obtain ⟨p, hrun⟩ := Step.run_eq_ok hok
    obtain ⟨output, s, g, items, st, log, hvalid, h, hitems, hcommit, -⟩ :=
      exists_commit_of_run hrun
    obtain ⟨⟨τ, f, hreserved, htree⟩, -⟩ := h.reserved
    exact ⟨output, τ, hvalid, h.feasible hitems ht hapart hoverwrite hreserved htree hcommit⟩
  · rintro ⟨output, τ, hvalid, hfeasible⟩
    exact run_of_feasible hm ht hoverwrite hvalid hfeasible

/-! ## The tree that is left -/

/-- What a batch leaves that has succeeded, told from the tree before it and from the tree `τ` with
its buffers left empty: the split documents, and elsewhere what was there, with the directories that
had to be made. -/
structure Leaves (m : Medium ρ σ κ δ) (time : Instant) (settings : Settings ρ) (output : Path)
    (store : Store) (τ t' : FileTree) : Prop where
  cwd : t'.cwd = store.tree.cwd
  landed : ∀ i source, settings.sources[i]? = some source →
    ∃ handle c, SplitsInto m settings store.tree source i handle c ∧
      ∀ l, (τ.makeDirectories output).2.Names (Registry.target output
        (Naming.outputName settings.pattern ⟨m.name source, i + 1, time⟩)) l →
        t'.get? l = some (.file c)
  elsewhere : ∀ l, (∀ name ∈ outputNames m time settings,
      ¬ (τ.makeDirectories output).2.Names (Registry.target output name) l) →
    t'.get? l = (store.tree.get? l).or
      (if (τ.makeDirectories output).2.isDirectory l then some .directory else none)

/-- A batch that has been committed leaves its documents in their places. -/
theorem AtCommit.leaves {t' : FileTree} {d : Location}
    (h : AtCommit m (namerAt time) notifier settings store p s g (items.map Pending.file))
    (hitems : Entered m (namerAt time) settings store.tree settings.sources g items)
    (ht : store.tree.WellFormed) (hapart : Apart m settings store)
    (htree : s.store.tree = τ.refill f)
    (hcommitted : Committed (s.store.tree.makeDirectories output).2 t' output d items) :
    Leaves m time settings output store τ t' := by
  have hsame : (s.store.tree.makeDirectories output).2 = (τ.makeDirectories output).2.refill f := by
    rw [htree, makeDirectories_refill]
    rfl
  have hnames : ∀ x ∈ items, (τ.makeDirectories output).2.Names
      (Registry.target output x.name) (d ++ [x.name]) := fun x hx =>
    names_refill.1 (hsame ▸ hcommitted.names x hx)
  refine ⟨?_, fun i source hi => ?_, fun l hl => ?_⟩
  · rw [hcommitted.carried.cwd_eq, (h.makes ht output).made.cwd, h.agrees.tree, h.sound.tree]
    rfl
  · obtain ⟨handle, x, hx, hname, hsplits⟩ := h.splitsInto hitems hapart hi
    have hmem := List.mem_of_getElem? hx
    refine ⟨handle, x.content, hsplits, fun l hl => ?_⟩
    rw [Except.ok.inj hname] at hl
    rw [(hnames x hmem).unique hl]
    exact hcommitted.get?_landed hitems.nodup hmem
  · by_cases hmem : l ∈ items.map Pending.location
    · obtain ⟨x, hx, rfl⟩ := List.mem_map.1 hmem
      have hfile := (Store.waitsIn_makeDirectories (h.wellFormed ht) output
        (h.agrees.tree ▸ hitems.waitsIn x hx)).get?_eq
      have hdir := not_isDirectory_of_file hfile
      rw [hsame, isDirectory_refill] at hdir
      rw [hcommitted.get?_location hx, (h.sound.free.get?_none x.location
        (map_fst_file items ▸ hmem)).2, hdir]
      rfl
    · have hstays := hcommitted.get?_of_ne hitems.nodup hmem fun x hx hlocate =>
        hl x.name (hitems.map_name ▸ List.mem_map_of_mem hx)
          ((hcommitted.names_after hx).eq_of_locate hlocate ▸ hnames x hx)
      rw [hstays, ← isDirectory_refill (f := f), ← hsame]
      rcases h.get?_makeDirectories ht (map_fst_file items ▸ hmem) output with
        heq | ⟨hnone, hdir, -⟩
      · rw [isDirectory, heq]
        rcases store.tree.get? l with _ | e <;> rfl
      · rw [hnone, isDirectory_iff.2 hdir, hdir]
        rfl

/-- **What a batch leaves** that succeeds, if the pattern of names has no slash. -/
theorem leaves_of_run {s' : State σ δ} (ht : store.tree.WellFormed)
    (hpattern : '/' ∉ settings.pattern.toList) (hoverwrite : settings.overwrite = false)
    (hapart : Apart m settings store)
    (hrun : (run m (namerAt time) notifier settings).run (.start store) = (.ok p, s')) :
    ∃ output τ, settings.validate = .ok output ∧
      Store.reserved store.tree store.buffers settings.sources.length = .ok τ ∧
      Leaves m time settings output store τ s'.store.tree := by
  obtain ⟨output, s, g, items, st, log, hvalid, h, hitems, hcommit, rfl⟩ :=
    exists_commit_of_run hrun
  obtain ⟨⟨τ, f, hreserved, htree⟩, -⟩ := h.reserved
  obtain ⟨-, d, hcommitted⟩ := h.committed hitems ht hpattern
    (fun htrue => by rw [hoverwrite] at htrue; cases htrue) hcommit
  exact ⟨output, τ, hvalid, hreserved, h.leaves hitems ht hapart htree hcommitted⟩

end

end Batch

end Folio
