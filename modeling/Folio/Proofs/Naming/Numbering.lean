import Folio.Proofs.Naming.Characters
import Folio.Proofs.Naming.Decomposition

/-!
# Numbers in names

A pattern is numbered (`Numbered`) if it asks for the number of a source, and not for its base name.
The names that it gives at timestamps of one width tell the numbers apart
(`number_eq_of_outputName_eq`), however often the number occurs and whatever digits stand next to
it: names of the same length have numbers of the same length, so every piece of one name stands
opposite the same piece of the other (`Template.value_eq_of_fill_eq`). Whether the document suffix
is added does not depend on the number, since the last value in a name ends in a digit, which is
none of the suffix (`Template.isDocumentName_fill_eq`).
-/

namespace Folio

namespace Naming

/-- A pattern with the placeholder for the number, and without the one for the base name. -/
structure Numbered (pattern : String) : Prop where
  fileNumber : Field.fileNumber.placeholder <:+: pattern.toList
  baseName : ¬ Field.baseName.placeholder <:+: pattern.toList

/-! ## Digits -/

/-- A text that ends in a digit. -/
def EndsInDigit (cs : List Char) : Prop := ∃ front c, cs = front ++ [c] ∧ c.isDigit = true

theorem EndsInDigit.append {cs : List Char} (h : EndsInDigit cs) (front : List Char) :
    EndsInDigit (front ++ cs) := by
  obtain ⟨rest, c, rfl, hc⟩ := h
  exact ⟨front ++ rest, c, (List.append_assoc ..).symm, hc⟩

theorem endsInDigit_toDigits (n : Nat) : EndsInDigit (Nat.toDigits 10 n) := by
  obtain ⟨front, c, h⟩ :=
    (List.eq_nil_or_concat' (Nat.toDigits 10 n)).resolve_left Nat.toDigits_ne_nil
  have hc : c ∈ Nat.toDigits 10 n := by simp [h]
  exact ⟨front, c, h, Nat.isDigit_of_mem_toDigits (by decide) (by decide) hc⟩

theorem endsInDigit_integerChars (n : Int) : EndsInDigit (integerChars n) := by
  unfold integerChars
  split
  · exact (endsInDigit_toDigits _).append ['-']
  · exact endsInDigit_toDigits _

theorem endsInDigit_timestampChars (t : Instant) : EndsInDigit t.timestampChars :=
  ((endsInDigit_toDigits _).append _).append _

theorem toDigits_injective : Function.Injective (Nat.toDigits 10) := fun m n h => by
  rw [← Nat.ofDigitChars_ten_toDigits (n := m), h, Nat.ofDigitChars_ten_toDigits]

/-- Different numbers have different texts. -/
theorem integerChars_injective : Function.Injective integerChars := by
  intro m n h
  have hsign : ∀ k l : Nat, '-' :: Nat.toDigits 10 k ≠ Nat.toDigits 10 l := fun k l heq => by
    have := Nat.isDigit_of_mem_toDigits (b := 10) (c := '-') (n := l) (by decide) (by decide)
      (heq ▸ List.mem_cons_self)
    cases this
  unfold integerChars at h
  split at h <;> split at h
  · have := toDigits_injective (List.cons.inj h).2
    omega
  · exact absurd h (hsign _ _)
  · exact absurd h.symm (hsign _ _)
  · have := toDigits_injective h
    omega

/-! ## Placeholders of a pattern -/

theorem Decomposition.field_mem_of_mem_places {f : Field} :
    ∀ {ps : List Piece} {i : Nat}, (i, f) ∈ (ofPieces ps).places → .field f ∈ ps
  | .literal c :: ps, _, h => by
    obtain ⟨j, -, hj⟩ := mem_places_literal.1 h
    exact List.mem_cons_of_mem _ (field_mem_of_mem_places hj)
  | .field g :: ps, _, h => by
    rcases mem_places_field.1 h with ⟨-, rfl⟩ | ⟨j, -, hj⟩
    · exact List.mem_cons_self
    · exact List.mem_cons_of_mem _ (field_mem_of_mem_places hj)

/-- A placeholder that stands in a text is read from it. -/
theorem Template.mem_scan_of_placeholder_infix {cs : List Char} {f : Field}
    (h : f.placeholder <:+: cs) : .field f ∈ scan cs := by
  obtain ⟨front, back, rfl⟩ := h
  refine Decomposition.field_mem_of_mem_places
    ((Decomposition.decomposes_iff.2 rfl).only f front.length ?_)
  rw [List.append_assoc, List.drop_left]
  exact List.prefix_append _ _

theorem Template.hasField_of_mem {ps : List Piece} {f : Field} (h : .field f ∈ ps) :
    hasField ps = true :=
  List.any_eq_true.2 ⟨_, h, rfl⟩

section
variable {pattern : String}

theorem Numbered.mem_scan (h : Numbered pattern) :
    .field .fileNumber ∈ Template.scan pattern.toList :=
  Template.mem_scan_of_placeholder_infix h.fileNumber

/-- A numbered pattern asks for nothing but numbers and timestamps. -/
theorem Numbered.eq_of_mem_scan (h : Numbered pattern) {f : Field}
    (hf : .field f ∈ Template.scan pattern.toList) : f = .fileNumber ∨ f = .timestamp := by
  cases f with
  | baseName => exact absurd (Template.placeholder_infix_of_mem_scan hf) h.baseName
  | fileNumber => exact .inl rfl
  | timestamp => exact .inr rfl

end

/-! ## Filled templates -/

namespace Template

section
variable {value value' : Field → List Char} {f : Field}

theorem length_fill_le :
    ∀ {ps : List Piece}, (∀ g, .field g ∈ ps → (value g).length ≤ (value' g).length) →
      (fill value ps).length ≤ (fill value' ps).length
  | [], _ => Nat.le_refl 0
  | .literal c :: ps, h => by
    have hrest : ∀ g, .field g ∈ ps → (value g).length ≤ (value' g).length := fun g hg =>
      h g (List.mem_cons_of_mem _ hg)
    simpa using length_fill_le hrest
  | .field g :: ps, h => by
    have hrest : ∀ g, .field g ∈ ps → (value g).length ≤ (value' g).length := fun g hg =>
      h g (List.mem_cons_of_mem _ hg)
    have hg := h g List.mem_cons_self
    have := length_fill_le hrest
    rw [fill_field, fill_field, List.length_append, List.length_append]
    omega

/-- One longer value makes the whole longer. -/
theorem length_fill_lt (hf : (value f).length < (value' f).length) :
    ∀ {ps : List Piece}, .field f ∈ ps →
      (∀ g, .field g ∈ ps → (value g).length ≤ (value' g).length) →
      (fill value ps).length < (fill value' ps).length
  | .literal c :: ps, hmem, h => by
    have hmem : .field f ∈ ps := by simpa using hmem
    have := length_fill_lt hf hmem fun g hg => h g (List.mem_cons_of_mem _ hg)
    simpa using this
  | .field g :: ps, hmem, h => by
    rw [fill_field, fill_field, List.length_append, List.length_append]
    have hrest : ∀ g, .field g ∈ ps → (value g).length ≤ (value' g).length := fun g hg =>
      h g (List.mem_cons_of_mem _ hg)
    rcases List.mem_cons.1 hmem with heq | hmem
    · cases heq
      have := length_fill_le hrest
      omega
    · have hg := h g List.mem_cons_self
      have := length_fill_lt hf hmem hrest
      omega

/-- Where all values have the same lengths, equal fillings have equal values. -/
theorem value_eq_of_aligned :
    ∀ {ps : List Piece}, (∀ g, .field g ∈ ps → (value g).length = (value' g).length) →
      fill value ps = fill value' ps → .field f ∈ ps → value f = value' f
  | .literal c :: ps, h, heq, hmem =>
    value_eq_of_aligned (fun g hg => h g (List.mem_cons_of_mem _ hg)) (List.cons.inj heq).2
      (by simpa using hmem)
  | .field g :: ps, h, heq, hmem => by
    obtain ⟨hg, hrest⟩ := List.append_inj heq (h g List.mem_cons_self)
    rcases List.mem_cons.1 hmem with hf | hmem
    · cases hf
      exact hg
    · exact value_eq_of_aligned (fun g hg => h g (List.mem_cons_of_mem _ hg)) hrest hmem

/-- **A value can be read off a filled template** whose other values have known lengths: the length
of the whole gives the length of the value, and then every piece has its place. -/
theorem value_eq_of_fill_eq {ps : List Piece} (hmem : .field f ∈ ps)
    (hlength : ∀ g, .field g ∈ ps → g ≠ f → (value g).length = (value' g).length)
    (heq : fill value ps = fill value' ps) : value f = value' f := by
  have hf : (value f).length = (value' f).length := by
    rcases Nat.lt_trichotomy (value f).length (value' f).length with hlt | heq' | hgt
    · have := length_fill_lt hlt hmem fun g hg => by
        by_cases hgf : g = f
        · exact hgf ▸ Nat.le_of_lt hlt
        · exact Nat.le_of_eq (hlength g hg hgf)
      rw [heq] at this
      omega
    · exact heq'
    · have := length_fill_lt hgt hmem fun g hg => by
        by_cases hgf : g = f
        · exact hgf ▸ Nat.le_of_lt hgt
        · exact Nat.le_of_eq (hlength g hg hgf).symm
      rw [heq] at this
      omega
  refine value_eq_of_aligned (fun g hg => ?_) heq hmem
  by_cases hgf : g = f
  · exact hgf ▸ hf
  · exact hlength g hg hgf

/-- What follows the last value of a template stands there whatever the values are. -/
theorem exists_fill_eq_append :
    ∀ {ps : List Piece}, hasField ps = true →
      ∃ f follow, .field f ∈ ps ∧
        ∀ value : Field → List Char, ∃ front, fill value ps = front ++ (value f ++ follow)
  | .literal c :: ps, h => by
    have hps : hasField ps = true := h
    obtain ⟨f, follow, hmem, hfill⟩ := exists_fill_eq_append hps
    refine ⟨f, follow, List.mem_cons_of_mem _ hmem, fun value => ?_⟩
    obtain ⟨front, hfront⟩ := hfill value
    exact ⟨c :: front, by rw [fill_literal, hfront, List.cons_append]⟩
  | .field g :: ps, _ => by
    by_cases h : hasField ps = true
    · obtain ⟨f, follow, hmem, hfill⟩ := exists_fill_eq_append h
      refine ⟨f, follow, List.mem_cons_of_mem _ hmem, fun value => ?_⟩
      obtain ⟨front, hfront⟩ := hfill value
      exact ⟨value g ++ front, by rw [fill_field, hfront, List.append_assoc]⟩
    · -- behind the last value there are only literals
      have hfollow : ∀ value, fill value ps = fill Field.placeholder ps := fun value => by
        rw [fill, fill, List.flatMap_def, List.flatMap_def]
        refine congrArg List.flatten (List.map_congr_left fun p hp => ?_)
        cases p with
        | literal c => rfl
        | field f => exact absurd (hasField_of_mem hp) h
      exact ⟨g, fill Field.placeholder ps, List.mem_cons_self, fun value =>
        ⟨[], by rw [fill_field, hfollow, List.nil_append]⟩⟩

end

end Template

/-! ## Numbered patterns -/

/-- Whether a text is a document name is decided behind a character that is not in the suffix. -/
theorem isDocumentName_append_cons {c : Char} (hc : c.toLower ∉ FileName.documentSuffix)
    (front follow : List Char) : isDocumentName (front ++ c :: follow) = isDocumentName follow := by
  rw [Bool.eq_iff_iff, isDocumentName, isDocumentName, List.isSuffixOf_iff_suffix,
    List.isSuffixOf_iff_suffix, FileName.lower, FileName.lower, List.map_append, List.map_cons]
  generalize front.map Char.toLower = front
  generalize follow.map Char.toLower = follow
  have hcons : c.toLower :: follow <:+ front ++ c.toLower :: follow := List.suffix_append _ _
  constructor
  · intro h
    rcases Nat.lt_or_ge follow.length FileName.documentSuffix.length with hlt | hge
    · have hsuffix := List.suffix_of_suffix_length_le hcons h hlt
      exact absurd (hsuffix.subset List.mem_cons_self) hc
    · exact List.suffix_of_suffix_length_le h ((List.suffix_cons _ _).trans hcons) hge
  · intro h
    exact (h.trans (List.suffix_cons _ _)).trans hcons

theorem toLower_notMem_documentSuffix {c : Char} (hc : c.isDigit = true) :
    c.toLower ∉ FileName.documentSuffix := by
  have hlower : c.toLower = c := Char.toLower_eq_of_not_isUpper fun h => by
    rw [Char.isUpper, decide_eq_true_eq] at h
    rw [Char.isDigit, Bool.and_eq_true, decide_eq_true_eq, decide_eq_true_eq] at hc
    have hle := UInt32.le_iff_toNat_le.1 (UInt32.le_trans h.1 hc.2)
    exact absurd hle (by decide)
  rw [hlower]
  intro h
  have hnone : (FileName.documentSuffix.any Char.isDigit) = false := by decide
  rw [List.any_eq_false] at hnone
  exact hnone c h hc

/-- Values that end in digits do not decide whether a template is filled to a document name. -/
theorem Template.isDocumentName_fill_eq {value value' : Field → List Char} {ps : List Piece}
    (hfield : hasField ps = true) (h : ∀ f, .field f ∈ ps → EndsInDigit (value f))
    (h' : ∀ f, .field f ∈ ps → EndsInDigit (value' f)) :
    isDocumentName (fill value ps) = isDocumentName (fill value' ps) := by
  obtain ⟨f, follow, hmem, hfill⟩ := exists_fill_eq_append hfield
  have hdecided : ∀ value : Field → List Char, EndsInDigit (value f) →
      isDocumentName (fill value ps) = isDocumentName follow := fun value hvalue => by
    obtain ⟨front, hfront⟩ := hfill value
    obtain ⟨rest, c, heq, hc⟩ := hvalue
    rw [hfront, heq, List.append_assoc, List.singleton_append, ← List.append_assoc,
      isDocumentName_append_cons (toLower_notMem_documentSuffix hc)]
  rw [hdecided value (h f hmem), hdecided value' (h' f hmem)]

section
variable {pattern : String} {s s' : Subject}

/-- The output name of a numbered pattern. -/
theorem Numbered.outputName_eq (h : Numbered pattern) (s : Subject) :
    (outputName pattern s).toList =
      completed (Template.fill s.value (Template.scan pattern.toList)) := by
  rw [outputName, String.toList_ofList, outputChars,
    if_pos (Template.hasField_of_mem h.mem_scan)]

theorem Numbered.endsInDigit (h : Numbered pattern) (s : Subject) {f : Field}
    (hf : .field f ∈ Template.scan pattern.toList) : EndsInDigit (s.value f) := by
  rcases h.eq_of_mem_scan hf with rfl | rfl
  · exact endsInDigit_integerChars _
  · exact endsInDigit_timestampChars _

/-- **A numbered pattern tells numbers apart**, whatever the sources are called, as long as the
timestamps have the same width. -/
theorem number_eq_of_outputName_eq (h : Numbered pattern)
    (hwidth : s.time.timestampChars.length = s'.time.timestampChars.length)
    (heq : outputName pattern s = outputName pattern s') : s.number = s'.number := by
  have hchars := congrArg String.toList heq
  rw [h.outputName_eq, h.outputName_eq] at hchars
  have hsame := Template.isDocumentName_fill_eq (Template.hasField_of_mem h.mem_scan)
    (fun _ => h.endsInDigit s) fun _ => h.endsInDigit s'
  have hfill : Template.fill s.value (Template.scan pattern.toList) =
      Template.fill s'.value (Template.scan pattern.toList) := by
    unfold completed at hchars
    rw [hsame] at hchars
    split at hchars
    · exact hchars
    · exact List.append_cancel_right hchars
  refine integerChars_injective (Template.value_eq_of_fill_eq h.mem_scan (fun g hg hne => ?_) hfill)
  rcases h.eq_of_mem_scan hg with rfl | rfl
  · exact absurd rfl hne
  · exact hwidth

end

end Naming

end Folio
