import Folio.Proofs.Batch.Course
import Folio.Proofs.Output.Landing

/-!
# What has been entered

`Entered` says of a ledger what each source has become: the output that waits for it, and how that
came about. One more entry adds one more output (`Entered.enter`), so a batch that comes to its
commit has one for every source, in the order of the sources (`Entered.enterAll`).
-/

namespace Folio.Batch

open FileTree

variable {ρ σ κ δ : Type} {m : Medium ρ σ κ δ} {namer : Namer} {settings : Settings ρ}
  {t : FileTree} {g g' : Ledger σ} {items : List Pending}

/-- How an output came about: its source was opened with the outputs before it waiting, and split
into a draft of its own, which the buffer holds as it is saved. -/
structure EntryOf (m : Medium ρ σ κ δ) (namer : Namer) (settings : Settings ρ) (t : FileTree)
    (before : List Pending) (source : ρ) (handle : σ) (x : Pending) : Prop where
  opened : m.openSource (t.withFiles (before.map Pending.file)) source = .ok handle
  name : namer settings.pattern (m.name source) (before.length + 1) = .ok x.name
  content : ∃ blank d, m.newDraft before.length = .ok blank ∧
    m.assemble settings handle blank = .ok d ∧ m.content (m.sent d) = .ok x.content

/-- Each of a list of sources has been opened and has an output, with those before it waiting. -/
def EntriesOf (m : Medium ρ σ κ δ) (namer : Namer) (settings : Settings ρ) (t : FileTree)
    (sources : List ρ) (handles : List σ) (items : List Pending) : Prop :=
  ∀ ⦃i source⦄, sources[i]? = some source → ∃ handle x, handles[i]? = some handle ∧
    items[i]? = some x ∧ EntryOf m namer settings t (items.take i) source handle x

theorem EntriesOf.concat {sources : List ρ} {source : ρ} {handles : List σ} {handle : σ}
    {x : Pending} (h : EntriesOf m namer settings t sources handles items)
    (hhandles : handles.length = sources.length) (hitems : items.length = sources.length)
    (hx : EntryOf m namer settings t items source handle x) :
    EntriesOf m namer settings t (sources ++ [source]) (handles ++ [handle]) (items ++ [x]) := by
  intro i source' hi
  rcases Nat.lt_or_ge i sources.length with hlt | hge
  · rw [List.getElem?_append_left hlt] at hi
    obtain ⟨handle', x', hhandle, hitem, hentry⟩ := h hi
    refine ⟨handle', x', ?_, ?_, ?_⟩
    · rw [List.getElem?_append_left (hhandles.symm ▸ hlt), hhandle]
    · rw [List.getElem?_append_left (hitems.symm ▸ hlt), hitem]
    · rwa [List.take_append_of_le_length (by omega)]
  · rw [List.getElem?_append_right hge, List.getElem?_singleton] at hi
    split at hi
    · next hzero =>
      cases hi
      obtain rfl : i = sources.length := by omega
      refine ⟨handle, x, ?_, ?_, ?_⟩
      · rw [← hhandles, List.getElem?_concat_length]
      · rw [← hitems, List.getElem?_concat_length]
      · rwa [← hitems, List.take_left]
    · cases hi

/-- A ledger that some sources have been entered in, with the outputs that wait for them. -/
structure Entered (m : Medium ρ σ κ δ) (namer : Namer) (settings : Settings ρ) (t : FileTree)
    (sources : List ρ) (g : Ledger σ) (items : List Pending) : Prop where
  sound : g.Sound t (items.map Pending.file)
  outputs : g.registry.outputs = items.map Pending.output
  overwrite : g.registry.overwrite = settings.overwrite
  nodup : (items.map Pending.name).Nodup
  length : items.length = sources.length
  length_handles : g.handles.length = sources.length
  entries : EntriesOf m namer settings t sources g.handles items

theorem entered_begun (m : Medium ρ σ κ δ) (namer : Namer) (settings : Settings ρ)
    (store : Store) : Entered m namer settings store.tree [] (.begun settings store) [] where
  sound := Ledger.sound_start ..
  outputs := rfl
  overwrite := rfl
  nodup := .nil
  length := rfl
  length_handles := rfl
  entries _ _ h := by cases h

namespace Entered

/-- One more source adds one more output, under a new name. -/
theorem enter {sources : List ρ} {source : ρ} (hg : Entered m namer settings t sources g items)
    (h : g.enter m namer settings (sources.length + 1) source = .ok g') :
    ∃ x, Entered m namer settings t (sources ++ [source]) g' (items ++ [x]) := by
  obtain ⟨handle, blank, name, buffer, l, c, g₁, hopen, -, hblank, hname, hdep, rfl⟩ :=
    deposited_of_enter h
  have hregistry := (Registry.add_eq_ok.1 hdep.registry).2
  have hnames : g.registry.names = items.map Pending.name := by
    rw [Registry.names, hg.outputs, List.map_map]
    rfl
  have hsound := hdep.sound hg.sound
  have hentry : EntryOf m namer settings t items source handle ⟨name, buffer, l, c⟩ := by
    obtain ⟨d, hd, hc⟩ := hdep.content
    refine ⟨hg.sound.tree ▸ hopen, ?_, blank, d, ?_, hd, hc⟩
    · rw [hg.length]
      exact hname
    · rw [hg.length, ← hg.length_handles]
      exact hblank
  have hfiles : (items ++ [(⟨name, buffer, l, c⟩ : Pending)]).map Pending.file =
      items.map Pending.file ++ [(l, c)] := by
    rw [List.map_append]
    rfl
  refine ⟨⟨name, buffer, l, c⟩, {
    sound := hfiles ▸ ⟨hsound.tree, hsound.free, hsound.buffers⟩
    outputs := ?_
    overwrite := by rw [hregistry]; exact hg.overwrite
    nodup := ?_
    length := by rw [List.length_append, List.length_append, hg.length]; rfl
    length_handles := by rw [List.length_append, List.length_append, hg.length_handles]; rfl
    entries := hg.entries.concat hg.length_handles hg.length hentry }⟩
  · rw [hregistry, hg.outputs, List.map_append]
    rfl
  · have hnodup := Registry.nodup_names_add (hnames ▸ hg.nodup) hdep.registry
    rw [Registry.names_add hdep.registry, hnames] at hnodup
    rw [List.map_append]
    exact hnodup

/-- **Every source has its output**, whatever was entered before. -/
theorem enterAll :
    ∀ {rest before : List ρ} {g g' : Ledger σ} {items : List Pending},
      Entered m namer settings t before g items →
      g.enterAll m namer settings (before.length + 1) rest = .ok g' →
      ∃ items', Entered m namer settings t (before ++ rest) g' items'
  | [], before, g, g', items, hg, h => by
    cases h
    rw [List.append_nil]
    exact ⟨items, hg⟩
  | source :: rest, before, g, g', items, hg, h => by
    obtain ⟨g₁, henter, hrest⟩ := ok_of_bind h
    obtain ⟨x, hg₁⟩ := hg.enter henter
    have hlength : (((before ++ [source]).length : Nat) : Int) = before.length + 1 := by
      simp
    rw [← hlength] at hrest
    obtain ⟨items', hg'⟩ := enterAll hg₁ hrest
    rw [List.append_assoc] at hg'
    exact ⟨items', hg'⟩

end Entered

end Folio.Batch
