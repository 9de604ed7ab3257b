import Folio.Proofs.Naming.Characters
import Folio.Proofs.Naming.Decomposition

/-!
# Names of documents

An output name has as many slashes as its pattern (`count_slash_outputName`), since none is in what
is put in for placeholders. It is a document name if the source has one
(`endsAsDocument_outputName`): with a pattern without placeholders it ends in the name of the
source, and with any other it is completed. A document name without slashes is `Plain`: that of a
file directly in the directory that it is committed to (`Plain.target_eq`).
-/

namespace Folio

/-! ## Suffixes of names -/

/-- The characters behind the last dot stand behind a dot, unless there is none. -/
theorem FileName.suffix_isSuffix (name : List Char) : suffix name <:+ name := by
  unfold suffix
  dsimp only
  split
  · next h =>
    have hsplit : name = (name.reverse.dropWhile (· ≠ '.')).reverse ++
        (name.reverse.takeWhile (· ≠ '.')).reverse := by
      rw [← List.reverse_append, List.takeWhile_append_dropWhile, List.reverse_reverse]
    cases hbefore : name.reverse.dropWhile (· ≠ '.') with
    | nil =>
      rw [hbefore, List.reverse_nil, List.nil_append] at hsplit
      have := congrArg List.length hsplit
      omega
    | cons c rest =>
      obtain rfl : c = '.' := by
        have := List.head?_dropWhile_not (· ≠ '.') name.reverse
        rw [hbefore] at this
        simpa using this
      exact ⟨rest.reverse, by rw [hbefore] at hsplit; simpa using hsplit.symm⟩
  · exact List.nil_suffix

namespace Naming

/-- A name has the suffix of documents if it is a document name with something in front of that. -/
theorem lower_suffix_eq_iff {name : List Char} :
    FileName.lower (FileName.suffix name) = FileName.documentSuffix ↔
      EndsAsDocument name ∧ 4 < name.length := by
  constructor
  · intro h
    have hsuffix := FileName.suffix_isSuffix name
    have hlength : (FileName.suffix name).length = 4 := by
      rw [← List.length_map (f := Char.toLower)]
      exact congrArg List.length h
    constructor
    · rw [← isDocumentName_iff, isDocumentName, List.isSuffixOf_iff_suffix, ← h]
      exact hsuffix.map _
    · unfold FileName.suffix at hlength
      dsimp only at hlength
      split at hlength
      · next hlong =>
        rw [List.length_cons] at hlength
        omega
      · cases hlength
  · rintro ⟨⟨front, p, d, f, rfl, hp, hd, hf⟩, hlength⟩
    have hp' : p ≠ '.' := by rcases hp with rfl | rfl <;> decide
    have hd' : d ≠ '.' := by rcases hd with rfl | rfl <;> decide
    have hf' : f ≠ '.' := by rcases hf with rfl | rfl <;> decide
    have hafter : ((front ++ ['.', p, d, f]).reverse.takeWhile (· ≠ '.')).reverse = [p, d, f] := by
      simp [hp', hd', hf']
    unfold FileName.suffix
    rw [hafter, if_pos ⟨List.cons_ne_nil _ _, by simpa using hlength⟩]
    rcases hp with rfl | rfl <;> rcases hd with rfl | rfl <;> rcases hf with rfl | rfl <;> rfl

/-! ## Last components -/

theorem EndsAsDocument.append {cs : List Char} (h : EndsAsDocument cs) (front : List Char) :
    EndsAsDocument (front ++ cs) := by
  obtain ⟨rest, p, d, f, rfl, hp, hd, hf⟩ := h
  exact ⟨front ++ rest, p, d, f, (List.append_assoc ..).symm, hp, hd, hf⟩

theorem EndsAsDocument.four_le_length {cs : List Char} (h : EndsAsDocument cs) : 4 ≤ cs.length := by
  obtain ⟨front, p, d, f, rfl, -⟩ := h
  simp

/-- What a text ends in, if it holds no slash, is in the last of its pieces. -/
theorem slashPieces_append {word : List Char} (h : '/' ∉ word) :
    ∀ cs : List Char, ∃ pieces last, slashPieces (cs ++ word) = pieces ++ [last ++ word]
  | [] => ⟨[], [], slashPieces_of_notMem h⟩
  | c :: cs => by
    obtain ⟨pieces, last, hpieces⟩ := slashPieces_append h cs
    rw [List.cons_append, slashPieces, hpieces]
    by_cases hc : c = '/'
    · rw [if_pos hc]
      exact ⟨[] :: pieces, last, rfl⟩
    · rw [if_neg hc]
      cases pieces with
      | nil => exact ⟨[], c :: last, rfl⟩
      | cons piece pieces => exact ⟨(c :: piece) :: pieces, last, rfl⟩

/-- The last component of a text that is a document name is one, too. -/
theorem EndsAsDocument.name_ofText {text : String} (h : EndsAsDocument text.toList) :
    EndsAsDocument (Path.ofText text).name.toList := by
  obtain ⟨front, p, d, f, htext, hp, hd, hf⟩ := h
  have hword : EndsAsDocument ['.', p, d, f] := ⟨[], p, d, f, rfl, hp, hd, hf⟩
  have hslash : '/' ∉ ['.', p, d, f] := by
    rcases hp with rfl | rfl <;> rcases hd with rfl | rfl <;> rcases hf with rfl | rfl <;> decide
  obtain ⟨pieces, last, hpieces⟩ := slashPieces_append hslash front
  have hlast := hword.append last
  have hlength := hlast.four_le_length
  have hkept : String.ofList (last ++ ['.', p, d, f]) ≠ "" ∧
      String.ofList (last ++ ['.', p, d, f]) ≠ "." := by
    constructor <;>
    · intro heq
      rw [← String.toList_ofList (l := last ++ ['.', p, d, f]), heq] at hlength
      exact absurd hlength (by decide)
  rw [Path.ofText, Path.name, htext, hpieces, List.map_append, List.filter_append,
    List.map_singleton, List.filter_singleton]
  simp only [hkept, ne_eq, not_false_eq_true, and_self, decide_true, cond_true,
    List.getLastD_concat, String.toList_ofList]
  exact hlast

/-! ## Output names -/

/-- What is put in for placeholders has no slashes, and neither have they. -/
theorem count_slash_fill (s : Subject) (ps : List Piece) :
    (Template.fill s.value ps).count '/' = (Template.text ps).count '/' := by
  have hvalue (f : Field) : (s.value f).count '/' = 0 :=
    List.count_eq_zero.2 (notMem_value (by decide) (Path.slash_notMem_name s.source) f)
  have hplaceholder (f : Field) : f.placeholder.count '/' = 0 := by cases f <;> decide
  induction ps with
  | nil => rw [Template.fill_nil, Template.text_nil]
  | cons p ps ih =>
    cases p with
    | literal c =>
      rw [Template.fill_literal, Template.text_literal, List.count_cons, List.count_cons, ih]
    | field f =>
      rw [Template.fill_field, Template.text_field, List.count_append, List.count_append, hvalue,
        hplaceholder, ih]

/-- **An output name has as many slashes as its pattern.** -/
theorem count_slash_outputName (pattern : String) (s : Subject) :
    (outputName pattern s).toList.count '/' = pattern.toList.count '/' := by
  have hname : s.fileName.count '/' = 0 :=
    List.count_eq_zero.2 (Path.slash_notMem_name s.source)
  have hfill := count_slash_fill s (Template.scan pattern.toList)
  rw [Template.text_scan] at hfill
  rw [outputName, String.toList_ofList, outputChars]
  split
  · unfold completed
    split
    · exact hfill
    · rw [List.count_append, hfill]
      rfl
  · rw [List.count_append, hname, Nat.add_zero]

theorem endsAsDocument_completed (name : List Char) : EndsAsDocument (completed name) := by
  unfold completed
  split
  · next h => exact isDocumentName_iff.1 h
  · exact ⟨name, 'p', 'd', 'f', rfl, .inl rfl, .inl rfl, .inl rfl⟩

/-- The output name of a document is a document name. -/
theorem endsAsDocument_outputName (pattern : String) {s : Subject}
    (h : EndsAsDocument s.fileName) : EndsAsDocument (outputName pattern s).toList := by
  rw [outputName, String.toList_ofList, outputChars]
  split
  · exact endsAsDocument_completed _
  · exact h.append _

/-- The name of a document file directly in a directory. -/
structure Plain (name : String) : Prop where
  slash : '/' ∉ name.toList
  ne_empty : name ≠ ""
  ne_dot : name ≠ "."
  ne_dots : name ≠ ".."
  document : EndsAsDocument name.toList

theorem EndsAsDocument.plain {name : String} (h : EndsAsDocument name.toList)
    (hslash : '/' ∉ name.toList) : Plain name := by
  have hlong : ∀ short : String, short.toList.length < 4 → name ≠ short := by
    rintro short hshort rfl
    exact absurd h.four_le_length (Nat.not_le.2 hshort)
  exact ⟨hslash, hlong _ (by decide), hlong _ (by decide), hlong _ (by decide), h⟩

/-- A plain name is one more component of the path of the directory. -/
theorem Plain.target_eq {name : String} (h : Plain name) (directory : Path) :
    Registry.target directory name = ⟨directory.anchor, directory.parts ++ [name]⟩ := by
  rw [Registry.target_of_slash_notMem directory h.slash, if_neg]
  exact not_or.2 ⟨h.ne_empty, h.ne_dot⟩

end Naming

end Folio
