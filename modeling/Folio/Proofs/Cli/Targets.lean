import Folio.Pdf.Source
import Folio.Proofs.Cli.Reading
import Folio.Proofs.Naming.Documents

/-!
# Targets of document files

Whatever an input stands for, the paths have names of documents (`endsAsDocument_of_lookUp`). So
with a pattern without slashes every output is a document file directly in the output directory, and
no source gets more slashes into an output name than its pattern has (`plain_outputName`).
-/

namespace Folio.Cli

open Naming

/-! ## Suffixes -/

/-- A file has the suffix of documents if its name is a document name with something in front. -/
theorem hasDocumentSuffix_iff {name : String} :
    hasDocumentSuffix name = true ↔ EndsAsDocument name.toList ∧ 4 < name.toList.length := by
  rw [hasDocumentSuffix, beq_iff_eq, lower_suffix_eq_iff]

theorem isDocument_eq_ok_true {t : FileTree} {p : Path} :
    isDocument t p = .ok true ↔ t.isFileAt p = .ok true ∧ hasDocumentSuffix p.name = true := by
  unfold isDocument
  cases t.isFileAt p with
  | error e => simp [Except.map]
  | ok file => simp [Except.map]

/-- The paths that an input stands for have names of documents. -/
theorem endsAsDocument_of_lookUp {t : FileTree} {p q : Path} {paths : List Path}
    (h : lookUp t p = .ok (.documents paths)) (hq : q ∈ paths) :
    EndsAsDocument q.name.toList :=
  (hasDocumentSuffix_iff.1 (isDocument_eq_ok_true.1 (isDocument_of_lookUp h q hq)).2).1

/-! ## Outputs -/

/-- **Outputs of document files are plain files of the output directory.** If the pattern has no
slash, the name of every output is a document name, none of the names that stand for directories,
and one more component of the path of the directory. With any pattern, and from any name, an output
name has as many slashes as the pattern. -/
theorem plain_outputName :
    (∀ (t : FileTree) (text : String) (paths : List Path),
      lookUp t (.ofText text) = .ok (.documents paths) → ∀ p ∈ paths,
      ∀ (pattern : String) (password : Option String) (number : Int) (time : Instant),
        '/' ∉ pattern.toList →
        let name := outputName pattern ⟨(Pdf.Source.of p password none).name, number, time⟩
        Plain name ∧ ∀ directory : Path,
          Registry.target directory name = ⟨directory.anchor, directory.parts ++ [name]⟩) ∧
    ∀ (pattern : String) (s : Subject),
      (outputName pattern s).toList.count '/' = pattern.toList.count '/' := by
  refine ⟨?_, count_slash_outputName⟩
  intro t text paths hlookUp p hp pattern password number time hpattern name
  have hdocument : EndsAsDocument name.toList :=
    endsAsDocument_outputName pattern (endsAsDocument_of_lookUp hlookUp hp).name_ofText
  have hplain : Plain name := hdocument.plain (slash_notMem_outputName _ hpattern)
  exact ⟨hplain, hplain.target_eq⟩

/-- A file whose name is dots and a suffix in capitals. -/
theorem plain_outputName_dots :
    let book : Content := .document ⟨"%PDF-1.6", [], ⟨[], none, none⟩, none, false⟩
    let t : FileTree := ⟨["w"], [(["w"], .directory), (["w", "...PDF"], .file book)]⟩
    let time : Instant := ⟨2024, 3, 9, 14, 5, 7, 0⟩
    lookUp t (.ofText "./...PDF") = .ok (.documents [.ofText "...PDF"]) ∧
      Plain (outputName "" ⟨"...PDF", 1, time⟩) ∧
      Plain (outputName "[BASENAME]" ⟨"...PDF", 1, time⟩) := by
  intro book t time
  have hlookUp : lookUp t (.ofText "./...PDF") = .ok (.documents [.ofText "...PDF"]) := by rfl
  have hname : (Pdf.Source.of (.ofText "...PDF") none none).name = "...PDF" := by decide
  have hplain (pattern : String) (hpattern : '/' ∉ pattern.toList) :=
    plain_outputName.1 t "./...PDF" _ hlookUp _ (List.mem_singleton_self _) pattern none 1 time
      hpattern
  rw [hname] at hplain
  exact ⟨hlookUp, (hplain "" (by decide)).1, (hplain "[BASENAME]" (by decide)).1⟩

end Folio.Cli
