import Folio.Naming.OutputName
import Mathlib

/-!
# Decompositions of patterns

A `Decomposition` cuts a text at placeholders: what stands in front of the first, and every
placeholder with what follows it. It is one of the text (`Decomposition.Decomposes`) if the text
holds no placeholder apart from those that it is cut at. Brackets may be nested or broken, but a
placeholder has a bracket only at its two ends, so two of them never overlap and the decomposition
is the one that a single pass from left to right finds (`Decomposition.decomposes_iff`).

An output name is the text of that decomposition with a value in the place of every placeholder
(`outputName_decomposition`). The values are not looked at again: what they hold, and what they
form with the characters next to them, is not a placeholder of the pattern.
-/

namespace Folio.Naming

/-! ## Placeholders in a text -/

namespace Field
variable {f g : Field} {cs : List Char}

/-- A placeholder opens a bracket, and no other one. -/
theorem exists_placeholder_eq_cons (f : Field) :
    ∃ rest, f.placeholder = '[' :: rest ∧ '[' ∉ rest := by
  cases f with
  | baseName => exact ⟨"BASENAME]".toList, rfl, by decide⟩
  | fileNumber => exact ⟨"FILENUMBER]".toList, rfl, by decide⟩
  | timestamp => exact ⟨"TIMESTAMP]".toList, rfl, by decide⟩

theorem length_placeholder_pos (f : Field) : 0 < f.placeholder.length := by
  obtain ⟨rest, h, -⟩ := exists_placeholder_eq_cons f
  simp [h]

/-- A text begins with one placeholder at most. -/
theorem eq_of_placeholder_prefix (hf : f.placeholder <+: cs) (hg : g.placeholder <+: cs) :
    f = g := by
  rcases List.prefix_or_prefix_of_prefix hf hg with h | h <;> revert h <;>
    cases f <;> cases g <;> decide

theorem not_placeholder_prefix_of_atStart? (h : atStart? cs = none) (f : Field) :
    ¬ f.placeholder <+: cs := by
  rintro ⟨rest, rfl⟩
  rw [Template.atStart?_placeholder_append] at h
  cases h

/-- Behind the bracket of a placeholder no placeholder begins before that one has ended. -/
theorem not_placeholder_prefix_drop {i : Nat} (hpos : 0 < i) (hlt : i < f.placeholder.length)
    (g : Field) : ¬ g.placeholder <+: (f.placeholder ++ cs).drop i := by
  obtain ⟨restf, hf, hclean⟩ := exists_placeholder_eq_cons f
  obtain ⟨restg, hg, -⟩ := exists_placeholder_eq_cons g
  obtain ⟨k, rfl⟩ : ∃ k, i = k + 1 := ⟨i - 1, by omega⟩
  have hk : k < restf.length := by
    rw [hf, List.length_cons] at hlt
    omega
  intro hbegins
  rw [hf, hg, List.cons_append, List.drop_succ_cons,
    List.drop_append_of_le_length (Nat.le_of_lt hk), List.drop_eq_getElem_cons hk,
    List.cons_append, List.cons_prefix_cons] at hbegins
  exact hclean (hbegins.1 ▸ List.getElem_mem hk)

end Field

/-! ## Decompositions -/

/-- A text cut at placeholders. -/
structure Decomposition where
  /-- What stands in front of the first placeholder. -/
  lead : List Char
  /-- The placeholders, each with what follows it up to the next one or the end. -/
  tail : List (Field × List Char)
  deriving DecidableEq, Repr

namespace Decomposition

/-- The text with a value in the place of every placeholder. -/
def render (value : Field → List Char) (d : Decomposition) : List Char :=
  d.lead ++ d.tail.flatMap fun p => value p.1 ++ p.2

/-- Where the placeholders stand behind `start` characters. -/
def placesFrom : Nat → List (Field × List Char) → List (Nat × Field)
  | _, [] => []
  | start, (f, follow) :: tail =>
    (start, f) :: placesFrom (start + (f.placeholder.length + follow.length)) tail

/-- Where the placeholders stand. -/
def places (d : Decomposition) : List (Nat × Field) := placesFrom d.lead.length d.tail

/-- A decomposition of a text: it puts the text together, and the text holds no placeholder that
it is not cut at. -/
structure Decomposes (d : Decomposition) (cs : List Char) : Prop where
  text : d.render Field.placeholder = cs
  only : ∀ (f : Field) (i : Nat), f.placeholder <+: cs.drop i → (i, f) ∈ d.places

/-! ### Building from the front -/

/-- The decomposition of the empty text. -/
def empty : Decomposition := ⟨[], []⟩

/-- With one more character in front. -/
def literal (c : Char) (d : Decomposition) : Decomposition := { d with lead := c :: d.lead }

/-- With one more placeholder in front. -/
def field (f : Field) (d : Decomposition) : Decomposition := ⟨[], (f, d.lead) :: d.tail⟩

/-- The decomposition that pieces make. -/
def ofPieces : List Piece → Decomposition
  | [] => empty
  | .literal c :: ps => (ofPieces ps).literal c
  | .field f :: ps => (ofPieces ps).field f

section
variable {d : Decomposition} {c : Char} {f g : Field} {i : Nat} {cs : List Char}

/-- How a decomposition begins. -/
theorem eq_empty_or_literal_or_field (d : Decomposition) :
    d = empty ∨ (∃ c d', d = literal c d') ∨ ∃ f d', d = field f d' := by
  obtain ⟨lead, tail⟩ := d
  cases lead with
  | cons c lead => exact .inr (.inl ⟨c, ⟨lead, tail⟩, rfl⟩)
  | nil =>
    cases tail with
    | nil => exact .inl rfl
    | cons p tail => exact .inr (.inr ⟨p.1, ⟨p.2, tail⟩, rfl⟩)

@[simp] theorem render_literal (value : Field → List Char) (c : Char) (d : Decomposition) :
    (d.literal c).render value = c :: d.render value := rfl

@[simp] theorem render_field (value : Field → List Char) (f : Field) (d : Decomposition) :
    (d.field f).render value = value f ++ d.render value := by
  simp [render, field]

theorem placesFrom_add (k start : Nat) (tail : List (Field × List Char)) :
    placesFrom (start + k) tail = (placesFrom start tail).map fun p => (p.1 + k, p.2) := by
  induction tail generalizing start with
  | nil => rfl
  | cons p tail ih =>
    rw [placesFrom, placesFrom, List.map_cons, ← ih]
    congr 2
    omega

/-- Behind `k` more characters every placeholder stands `k` places further on. -/
theorem mem_placesFrom_add {k start : Nat} {tail : List (Field × List Char)} :
    (i, f) ∈ placesFrom (start + k) tail ↔ ∃ j, i = j + k ∧ (j, f) ∈ placesFrom start tail := by
  rw [placesFrom_add, List.mem_map]
  constructor
  · rintro ⟨⟨j, f'⟩, hj, heq⟩
    cases heq
    exact ⟨j, rfl, hj⟩
  · rintro ⟨j, rfl, hj⟩
    exact ⟨(j, f), hj, rfl⟩

theorem mem_places_literal :
    (i, f) ∈ (d.literal c).places ↔ ∃ j, i = j + 1 ∧ (j, f) ∈ d.places :=
  mem_placesFrom_add

theorem mem_places_field :
    (i, g) ∈ (d.field f).places ↔
      (i = 0 ∧ g = f) ∨ ∃ j, i = j + f.placeholder.length ∧ (j, g) ∈ d.places := by
  have hlength : 0 + (f.placeholder.length + d.lead.length) =
      d.lead.length + f.placeholder.length := by omega
  rw [places, field, placesFrom, List.mem_cons, Prod.mk.injEq, List.length_nil, hlength,
    mem_placesFrom_add]
  rfl

/-! ### One decomposition for every text -/

theorem decomposes_nil : d.Decomposes [] ↔ d = empty := by
  constructor
  · intro h
    rcases eq_empty_or_literal_or_field d with rfl | ⟨c, d', rfl⟩ | ⟨f, d', rfl⟩
    · rfl
    · cases h.text
    · obtain ⟨rest, hf, -⟩ := Field.exists_placeholder_eq_cons f
      have := h.text
      rw [render_field, hf] at this
      cases this
  · rintro rfl
    refine ⟨rfl, fun f i h => ?_⟩
    obtain ⟨rest, hf, -⟩ := Field.exists_placeholder_eq_cons f
    simp [hf] at h

/-- A character that begins no placeholder belongs to the lead. -/
theorem decomposes_cons (hstart : Field.atStart? (c :: cs) = none) :
    d.Decomposes (c :: cs) ↔ ∃ d', d = literal c d' ∧ d'.Decomposes cs := by
  constructor
  · intro h
    rcases eq_empty_or_literal_or_field d with rfl | ⟨c', d', rfl⟩ | ⟨f, d', rfl⟩
    · cases h.text
    · obtain ⟨rfl, htext⟩ := List.cons.inj h.text
      refine ⟨d', rfl, htext, fun f i hf => ?_⟩
      obtain ⟨k, hk, hmem⟩ := mem_places_literal.1 (h.only f (i + 1) hf)
      obtain rfl : i = k := by omega
      exact hmem
    · refine absurd ?_ (Field.not_placeholder_prefix_of_atStart? hstart f)
      exact ⟨d'.render Field.placeholder, (render_field _ f d').symm.trans h.text⟩
  · rintro ⟨d', rfl, h⟩
    refine ⟨by rw [render_literal, h.text], fun f i hf => ?_⟩
    cases i with
    | zero => exact absurd hf (Field.not_placeholder_prefix_of_atStart? hstart f)
    | succ i => exact mem_places_literal.2 ⟨i, rfl, h.only f i hf⟩

/-- A placeholder at the start of a text is one that the text is cut at. -/
theorem decomposes_placeholder_append :
    d.Decomposes (f.placeholder ++ cs) ↔ ∃ d', d = field f d' ∧ d'.Decomposes cs := by
  have hpos := Field.length_placeholder_pos f
  constructor
  · intro h
    have hzero : (0, f) ∈ d.places := h.only f 0 (List.prefix_append _ _)
    rcases eq_empty_or_literal_or_field d with rfl | ⟨c, d', rfl⟩ | ⟨f', d', rfl⟩
    · cases hzero
    · obtain ⟨k, hk, -⟩ := mem_places_literal.1 hzero
      omega
    · obtain rfl : f = f' := Field.eq_of_placeholder_prefix (List.prefix_append _ _)
        ⟨d'.render Field.placeholder, (render_field _ f' d').symm.trans h.text⟩
      have htext := h.text
      rw [render_field, List.append_cancel_left_eq] at htext
      refine ⟨d', rfl, htext, fun g i hg => ?_⟩
      have hplace : (i + f.placeholder.length, g) ∈ (d'.field f).places := by
        apply h.only
        rwa [Nat.add_comm, List.drop_length_add_append]
      rcases mem_places_field.1 hplace with ⟨hi, -⟩ | ⟨k, hk, hmem⟩
      · omega
      · obtain rfl : i = k := by omega
        exact hmem
  · rintro ⟨d', rfl, h⟩
    refine ⟨by rw [render_field, h.text], fun g i hg => mem_places_field.2 ?_⟩
    rcases Nat.eq_zero_or_pos i with rfl | hi
    · exact .inl ⟨rfl, Field.eq_of_placeholder_prefix hg (List.prefix_append _ _)⟩
    · rcases Nat.lt_or_ge i f.placeholder.length with hlt | hge
      · exact absurd hg (Field.not_placeholder_prefix_drop hi hlt g)
      · obtain ⟨k, rfl⟩ := Nat.exists_eq_add_of_le' hge
        rw [Nat.add_comm, List.drop_length_add_append] at hg
        exact .inr ⟨k, rfl, h.only g k hg⟩

/-- **The decomposition of a text is the one that reading it finds.** -/
theorem decomposes_iff : d.Decomposes cs ↔ d = ofPieces (Template.scan cs) := by
  induction cs using Template.scan_induction generalizing d with
  | nil => exact decomposes_nil
  | literal c cs hstart ih =>
    rw [decomposes_cons hstart, Template.scan_cons_of_atStart? hstart, ofPieces]
    simp [ih]
  | field f cs ih =>
    rw [decomposes_placeholder_append, Template.scan_placeholder_append, ofPieces]
    simp [ih]

end

/-! ### Pieces and decompositions -/

theorem render_ofPieces (value : Field → List Char) (ps : List Piece) :
    (ofPieces ps).render value = Template.fill value ps := by
  induction ps with
  | nil => rfl
  | cons p ps ih =>
    cases p with
    | literal c => rw [ofPieces, render_literal, ih]; rfl
    | field f => rw [ofPieces, render_field, ih]; rfl

theorem tail_ofPieces_ne_nil (ps : List Piece) :
    (ofPieces ps).tail ≠ [] ↔ Template.hasField ps = true := by
  induction ps with
  | nil => exact ⟨fun h => absurd rfl h, fun h => Bool.noConfusion h⟩
  | cons p ps ih =>
    cases p with
    | literal c => exact ih
    | field f => exact ⟨fun _ => rfl, fun _ => List.cons_ne_nil _ _⟩

end Decomposition

/-! ## Document suffixes -/

/-- Does a name end in the document suffix, each letter small or capital? -/
def EndsAsDocument (name : List Char) : Prop :=
  ∃ front p d f, name = front ++ ['.', p, d, f] ∧
    (p = 'p' ∨ p = 'P') ∧ (d = 'd' ∨ d = 'D') ∧ (f = 'f' ∨ f = 'F')

theorem toLower_eq_iff {c t : Char} (ht : ¬ t.isUpper = true) :
    c.toLower = t ↔ c = t ∨ c = t.toUpper := by
  constructor
  · rintro rfl
    rw [Char.toUpper_toLower_eq_toUpper]
    by_cases hc : c.isUpper = true
    · exact .inr (Char.toUpper_eq_of_not_isLower fun h => Char.not_isLower_of_isUpper hc h).symm
    · exact .inl (Char.toLower_eq_of_not_isUpper hc).symm
  · rintro (rfl | rfl)
    · exact Char.toLower_eq_of_not_isUpper ht
    · rw [Char.toLower_toUpper_eq_toLower, Char.toLower_eq_of_not_isUpper ht]

/-- The test for a document name, without lower case. -/
theorem isDocumentName_iff {name : List Char} :
    isDocumentName name = true ↔ EndsAsDocument name := by
  have hp {c : Char} : c.toLower = 'p' ↔ c = 'p' ∨ c = 'P' := toLower_eq_iff (by decide)
  have hd {c : Char} : c.toLower = 'd' ↔ c = 'd' ∨ c = 'D' := toLower_eq_iff (by decide)
  have hf {c : Char} : c.toLower = 'f' ↔ c = 'f' ∨ c = 'F' := toLower_eq_iff (by decide)
  have hdot {c : Char} : c.toLower = '.' ↔ c = '.' := by
    have h := toLower_eq_iff (c := c) (t := '.') (by decide)
    rwa [show '.'.toUpper = '.' from rfl, or_self] at h
  rw [isDocumentName, FileName.lower, List.isSuffixOf_iff_suffix, List.suffix_map_iff]
  constructor
  · rintro ⟨last, ⟨front, rfl⟩, hlast⟩
    obtain ⟨_, _, rfl, h₀, hlast⟩ := List.map_eq_cons_iff.1 hlast.symm
    obtain ⟨p, _, rfl, h₁, hlast⟩ := List.map_eq_cons_iff.1 hlast
    obtain ⟨d, _, rfl, h₂, hlast⟩ := List.map_eq_cons_iff.1 hlast
    obtain ⟨f, _, rfl, h₃, hlast⟩ := List.map_eq_cons_iff.1 hlast
    obtain rfl := List.map_eq_nil_iff.1 hlast
    obtain rfl := hdot.1 h₀
    exact ⟨front, p, d, f, rfl, hp.1 h₁, hd.1 h₂, hf.1 h₃⟩
  · rintro ⟨front, p, d, f, rfl, h₁, h₂, h₃⟩
    refine ⟨['.', p, d, f], ⟨front, rfl⟩, ?_⟩
    rw [List.map_cons, List.map_cons, List.map_cons, List.map_cons, hdot.2 rfl, hp.2 h₁, hd.2 h₂,
      hf.2 h₃]
    rfl

/-! ## Output names -/

/-- The output name of a source by a decomposition of the pattern. -/
structure Decomposition.Names (d : Decomposition) (pattern : String) (s : Subject) : Prop where
  /-- Without placeholders: the pattern in front of the name of the source. -/
  plain : d.tail = [] → (outputName pattern s).toList = pattern.toList ++ s.fileName
  /-- With placeholders: the values between the literals, if that is a document name, -/
  whole : d.tail ≠ [] → EndsAsDocument (d.render s.value) →
    (outputName pattern s).toList = d.render s.value
  /-- and otherwise completed to one. -/
  completed : d.tail ≠ [] → ¬ EndsAsDocument (d.render s.value) →
    (outputName pattern s).toList = d.render s.value ++ ".pdf".toList

theorem Decomposition.names_ofPieces (pattern : String) (s : Subject) :
    (ofPieces (Template.scan pattern.toList)).Names pattern s := by
  have htail := tail_ofPieces_ne_nil (Template.scan pattern.toList)
  have hrender := render_ofPieces s.value (Template.scan pattern.toList)
  constructor
  · intro hnil
    have hfield : ¬ Template.hasField (Template.scan pattern.toList) = true :=
      fun h => htail.2 h hnil
    rw [outputName, String.toList_ofList, outputChars, if_neg hfield]
  · intro hne hdocument
    rw [outputName, String.toList_ofList, outputChars, if_pos (htail.1 hne), hrender,
      Naming.completed, if_pos (isDocumentName_iff.2 (hrender ▸ hdocument))]
  · intro hne hdocument
    rw [outputName, String.toList_ofList, outputChars, if_pos (htail.1 hne), hrender,
      Naming.completed, if_neg fun h => hdocument (hrender ▸ isDocumentName_iff.1 h)]
    rfl

/-- **A pattern has exactly one decomposition, and an output name is that decomposition with the
values in the place of the placeholders.** -/
theorem outputName_decomposition (pattern : String) :
    (∃! d : Decomposition, d.Decomposes pattern.toList) ∧
      ∀ d : Decomposition, d.Decomposes pattern.toList → ∀ s : Subject, d.Names pattern s := by
  refine ⟨⟨_, Decomposition.decomposes_iff.2 rfl, fun d h => Decomposition.decomposes_iff.1 h⟩, ?_⟩
  intro d h s
  obtain rfl := Decomposition.decomposes_iff.1 h
  exact Decomposition.names_ofPieces pattern s

/-- A placeholder in brackets, one next to it and a broken one. The stem is a placeholder together
with the brackets around it, and stays. -/
theorem outputName_decomposition_brackets :
    let pattern := "[[BASENAME]][FILENUMBER][TIMESTAMP"
    let s : Subject := ⟨"scans/FILENUMBER.PDF", 7, ⟨2024, 3, 9, 14, 5, 7, 123456⟩⟩
    let d : Decomposition := ⟨['['], [(.baseName, [']']), (.fileNumber, "[TIMESTAMP".toList)]⟩
    d.Decomposes pattern.toList ∧
      (outputName pattern s).toList = "[FILENUMBER]7[TIMESTAMP.pdf".toList := by
  intro pattern s d
  have hd : d.Decomposes pattern.toList := Decomposition.decomposes_iff.2 (by decide)
  have hdocument : ¬ EndsAsDocument (d.render s.value) := by
    rw [← isDocumentName_iff]
    decide
  have hname := ((outputName_decomposition pattern).2 d hd s).completed (by decide) hdocument
  exact ⟨hd, hname.trans (by decide)⟩

end Folio.Naming
