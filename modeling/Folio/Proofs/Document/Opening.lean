import Folio.Document.Rehearsal
import Folio.Pdf.Draft
import Folio.Proofs.FileTree.Adding
import Folio.Proofs.FileTree.Refusals

/-!
# Opening sources

A document file that is opened has been read and unlocked, and it is opened alike with other files
beside it. Document files and rehearsals are both guarded media (`Medium.Guarded`): their sources go
by their names, and a permission is refused in the name of the source.
-/

namespace Folio

variable {ρ σ κ δ : Type}

open FileTree

/-! ## Document files -/

/-- A document that is opened has been read and unlocked. -/
theorem Pdf.openIn_eq_ok {t : FileTree} {source : Pdf.Source} {handle : Pdf.Handle} :
    source.openIn t = .ok handle ↔
      ∃ file, t.read source.path = .ok (.document file) ∧ source.unlock file = .ok handle := by
  unfold Pdf.Source.openIn
  split <;> simp_all

/-- A document goes by the name of its source, whoever opens it. -/
theorem Pdf.name_of_unlock {source : Pdf.Source} {file : Pdf.File} {handle : Pdf.Handle}
    (h : source.unlock file = .ok handle) : handle.name = source.name := by
  unfold Pdf.Source.unlock at h
  split at h
  · cases h
    rfl
  · split at h <;> cases h <;> rfl

/-- A document that is opened can be read. -/
theorem Pdf.file_of_unlock {source : Pdf.Source} {file : Pdf.File} {handle : Pdf.Handle}
    (h : source.unlock file = .ok handle) : handle.file = some file := by
  unfold Pdf.Source.unlock at h
  split at h
  · cases h
    rfl
  · split at h <;> cases h <;> rfl

/-- A document whose path can be handed to the file system fails to be opened as a source. -/
theorem Pdf.openIn_error {t : FileTree} {source : Pdf.Source} {f : Failure}
    (hpath : source.path.hasNul = false) (h : source.openIn t = .error f) :
    ∃ fault, f = source.failure fault := by
  unfold Pdf.Source.openIn at h
  split at h
  · next hread => exact absurd hread (read_ne_embeddedNul hpath)
  · cases h
    exact ⟨_, rfl⟩
  · cases h
    exact ⟨_, rfl⟩
  · unfold Pdf.Source.unlock at h
    split at h
    · cases h
    · split at h <;> cases h
      exact ⟨_, rfl⟩

/-! ## Guarded media -/

/-- In a guarded medium an opened source goes by its name, files that are added change no source
that can be opened already, and a permission that is refused is refused in the name of the source.
-/
structure Medium.Guarded (m : Medium ρ σ κ δ) : Prop where
  sourceName_eq : ∀ {t source handle}, m.openSource t source = .ok handle →
    m.sourceName handle = m.name source
  openSource_withFiles : ∀ {t files source handle}, t.Free files →
    m.openSource t source = .ok handle → m.openSource (t.withFiles files) source = .ok handle
  denied_eq : ∀ {permission handle f}, m.ensure permission handle = .error f →
    f = .permissionDenied (m.sourceName handle) permission

/-- A source can be opened, but it does not grant copying. -/
def Medium.Denies (m : Medium ρ σ κ δ) (t : FileTree) (source : ρ) : Prop :=
  ∃ handle, m.openSource t source = .ok handle ∧
    (m.ensure .copyAndExtract handle).isOk = false

/-- A source that denies copying denies it in its own name, with whatever files beside it. -/
theorem Medium.Guarded.denied {m : Medium ρ σ κ δ} (hm : m.Guarded) {t : FileTree}
    {files : List (Location × Content)} {source : ρ} (hfree : t.Free files)
    (h : m.Denies t source) :
    ∃ handle, m.openSource (t.withFiles files) source = .ok handle ∧
      m.sourceName handle = m.name source ∧
      m.ensure .copyAndExtract handle =
        .error (.permissionDenied (m.name source) .copyAndExtract) := by
  obtain ⟨handle, hopen, hensure⟩ := h
  refine ⟨handle, hm.openSource_withFiles hfree hopen, hm.sourceName_eq hopen, ?_⟩
  cases hdenied : m.ensure .copyAndExtract handle with
  | ok u =>
    rw [hdenied] at hensure
    cases hensure
  | error f => rw [hm.denied_eq hdenied, hm.sourceName_eq hopen]

theorem Pdf.guarded_medium : Pdf.medium.Guarded where
  sourceName_eq {t source handle} h := by
    obtain ⟨file, -, h⟩ := Pdf.openIn_eq_ok.1 h
    exact Pdf.name_of_unlock h
  openSource_withFiles {t files source handle} hfree h := by
    obtain ⟨file, hread, h⟩ := Pdf.openIn_eq_ok.1 h
    exact Pdf.openIn_eq_ok.2 ⟨file, hfree.read hread, h⟩
  denied_eq {permission handle f} h := by
    change handle.ensure permission = .error f at h
    unfold Pdf.Handle.ensure at h
    split at h
    · cases h
    · split at h
      · cases h
      · cases h
        rfl

theorem Rehearsal.guarded_medium (plan : Plan) : (Rehearsal.medium plan).Guarded where
  sourceName_eq {t source handle} h := by
    change (if source.broken then _ else _) = _ at h
    split at h
    · cases h
    · cases h
      rfl
  openSource_withFiles _ h := h
  denied_eq {permission handle f} h := by
    simp only [Rehearsal.medium] at h
    split at h
    · cases h
    · split at h
      · cases h
      · cases h
        rfl

end Folio
