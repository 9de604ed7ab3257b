import Folio.Naming.OutputName
import Folio.Output.Registry
import Folio.Proofs.Path

/-!
# Characters of names

Of what is put in for placeholders only the name of the source has characters that are neither
digits nor a few signs. So an output name holds a foreign character only if its pattern or its
source does (`notMem_outputName`), and a slash only if its pattern does (`slash_notMem_outputName`).
A name without a slash is a single component, or none (`target_of_slash_notMem`). The number of a
source is in its output name only if the pattern asks for it (`outputName_of_unnumbered`).
-/

namespace Folio

/-! ## Targets -/

/-- Where an output with a name without slashes goes: below the directory, or to the directory
itself if the name is no component. -/
theorem Registry.target_of_slash_notMem {name : String} (directory : Path)
    (h : '/' ∉ name.toList) :
    Registry.target directory name =
      { directory with
        parts := directory.parts ++ if name = "" ∨ name = "." then [] else [name] } := by
  show directory.join (Path.ofText name) = _
  rw [Path.ofText_of_slash_notMem h]
  rfl

theorem Registry.hasNul_target {directory : Path} {name : String}
    (hdirectory : directory.hasNul = false) (hname : Char.ofNat 0 ∉ name.toList) :
    (Registry.target directory name).hasNul = false :=
  Path.hasNul_join hdirectory (Path.hasNul_ofText hname)

/-! ## Names -/

namespace Naming

/-- A character that stands in no number, no timestamp and no suffix. -/
def Foreign (c : Char) : Prop :=
  c.isDigit = false ∧ c ≠ '-' ∧ c ≠ '_' ∧ c ∉ FileName.documentSuffix

instance (c : Char) : Decidable (Foreign c) := inferInstanceAs (Decidable (_ ∧ _ ∧ _ ∧ _))

section
variable {c : Char}

theorem notMem_toDigits (hc : Foreign c) (n : Nat) : c ∉ Nat.toDigits 10 n := fun h => by
  have := Nat.isDigit_of_mem_toDigits (by decide) (by decide) h
  rw [hc.1] at this
  cases this

theorem notMem_padded (hc : Foreign c) (width n : Nat) : c ∉ padded width n := by
  have hzero : c ≠ '0' := by
    rintro rfl
    exact absurd hc.1 (by decide)
  simp [padded, notMem_toDigits hc, hzero]

theorem notMem_integerChars (hc : Foreign c) (n : Int) : c ∉ integerChars n := by
  unfold integerChars
  split <;> simp [notMem_toDigits hc, hc.2.1]

theorem notMem_timestampChars (hc : Foreign c) (t : Instant) : c ∉ t.timestampChars := by
  simp [Instant.timestampChars, Instant.stampChars, Instant.dateChars, Instant.clockChars,
    notMem_padded hc, notMem_toDigits hc, hc.2.2.1]

/-- What is put in for a placeholder holds no foreign character that the name of the source does not
hold. -/
theorem notMem_value (hc : Foreign c) {s : Subject} (hname : c ∉ s.fileName) (f : Field) :
    c ∉ s.value f := by
  cases f with
  | baseName => exact fun h => hname (List.mem_of_mem_take h)
  | fileNumber => exact notMem_integerChars hc _
  | timestamp => exact notMem_timestampChars hc _

/-- A character that stands for itself in a template is one of its text. -/
theorem Template.mem_of_literal_mem_scan {cs : List Char} (h : .literal c ∈ Template.scan cs) :
    c ∈ cs := by
  rw [← Template.text_scan cs, Template.text, List.mem_flatMap]
  exact ⟨_, h, List.mem_singleton_self c⟩

theorem notMem_fill (hc : Foreign c) {pattern : List Char} {s : Subject} (hpattern : c ∉ pattern)
    (hname : c ∉ s.fileName) : c ∉ Template.fill s.value (Template.scan pattern) := by
  rw [Template.fill, List.mem_flatMap]
  rintro ⟨piece, hpiece, hmem⟩
  cases piece with
  | literal d =>
    rw [List.mem_singleton.1 hmem] at hpattern
    exact hpattern (Template.mem_of_literal_mem_scan hpiece)
  | field f => exact notMem_value hc hname f hmem

theorem notMem_completed (hc : Foreign c) {name : List Char} (h : c ∉ name) :
    c ∉ completed name := by
  unfold completed
  split
  · exact h
  · rw [List.mem_append, not_or]
    exact ⟨h, hc.2.2.2⟩

/-- **An output name holds a foreign character only if its pattern or its source does.** -/
theorem notMem_outputName (hc : Foreign c) {pattern : String} {s : Subject}
    (hpattern : c ∉ pattern.toList) (hname : c ∉ s.fileName) :
    c ∉ (outputName pattern s).toList := by
  rw [outputName, String.toList_ofList, outputChars]
  split
  · exact notMem_completed hc (notMem_fill hc hpattern hname)
  · rw [List.mem_append, not_or]
    exact ⟨hpattern, hname⟩

end

/-- **An output name holds a slash only if its pattern does.** -/
theorem slash_notMem_outputName {pattern : String} (s : Subject) (h : '/' ∉ pattern.toList) :
    '/' ∉ (outputName pattern s).toList :=
  notMem_outputName (by decide) h (Path.slash_notMem_name s.source)

/-! ## Numbers -/

/-- The placeholder of a field that is read from a text stands in it. -/
theorem Template.placeholder_infix_of_mem_scan {cs : List Char} {f : Field}
    (h : .field f ∈ Template.scan cs) : f.placeholder <:+: cs := by
  have htext := Template.text_scan cs
  rw [Template.text, List.flatMap_def] at htext
  exact htext ▸ List.infix_of_mem_flatten (List.mem_map_of_mem h)

/-- A pattern without the placeholder for the number gives a source the same name under every
number. -/
theorem outputName_of_unnumbered {pattern : String}
    (h : ¬ Field.fileNumber.placeholder <:+: pattern.toList) (source : String) (time : Instant)
    (number number' : Int) :
    outputName pattern ⟨source, number, time⟩ = outputName pattern ⟨source, number', time⟩ := by
  have hfill : Template.fill (Subject.value ⟨source, number, time⟩)
      (Template.scan pattern.toList) =
        Template.fill (Subject.value ⟨source, number', time⟩) (Template.scan pattern.toList) := by
    rw [Template.fill, Template.fill, List.flatMap_def, List.flatMap_def]
    refine congrArg List.flatten (List.map_congr_left fun piece hpiece => ?_)
    rcases piece with c | _ | _ | _
    · rfl
    · rfl
    · exact absurd (Template.placeholder_infix_of_mem_scan hpiece) h
    · rfl
  rw [outputName, outputName, outputChars, outputChars, hfill]
  rfl

end Naming

end Folio
