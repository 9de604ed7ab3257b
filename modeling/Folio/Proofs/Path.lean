import Folio.Path

/-!
# Characters of paths

Reading a path adds no characters: those of its components are those of its text, but for slashes.
So a path that is read from a text without U+0000 can be handed to the file system.
-/

namespace Folio

/-! ## Components -/

/-- The pieces of a text hold no other characters than the text. -/
theorem mem_of_mem_slashPieces {c : Char} :
    ∀ {cs piece : List Char}, piece ∈ slashPieces cs → c ∈ piece → c ∈ cs
  | [], piece, hpiece, hc => by
    rw [slashPieces, List.mem_singleton] at hpiece
    exact hpiece ▸ hc
  | d :: cs, piece, hpiece, hc => by
    unfold slashPieces at hpiece
    split at hpiece
    · rcases List.mem_cons.1 hpiece with rfl | hpiece
      · cases hc
      · exact List.mem_cons_of_mem _ (mem_of_mem_slashPieces hpiece hc)
    · split at hpiece
      · next h => exact absurd h (slashPieces_ne_nil cs)
      · next first rest h =>
        rcases List.mem_cons.1 hpiece with rfl | hpiece
        · rcases List.mem_cons.1 hc with rfl | hc
          · exact List.mem_cons_self
          · exact List.mem_cons_of_mem _ (mem_of_mem_slashPieces (h ▸ List.mem_cons_self) hc)
        · exact List.mem_cons_of_mem _
            (mem_of_mem_slashPieces (h ▸ List.mem_cons_of_mem _ hpiece) hc)

/-- The components of a path that was read hold no other characters than its text. -/
theorem Path.notMem_of_mem_parts {c : Char} {text part : String} (h : c ∉ text.toList)
    (hpart : part ∈ (Path.ofText text).parts) : c ∉ part.toList := by
  obtain ⟨piece, hpiece, rfl⟩ := List.mem_map.1 (List.mem_filter.1 hpart).1
  rw [String.toList_ofList]
  exact fun hc => h (mem_of_mem_slashPieces hpiece hc)

/-- The name of a path holds no other characters than its components. -/
theorem Path.notMem_name {c : Char} {p : Path} (h : ∀ part ∈ p.parts, c ∉ part.toList) :
    c ∉ p.name.toList := by
  unfold Path.name
  rcases List.eq_nil_or_concat p.parts with hnil | ⟨up, name, hparts⟩
  · simp [hnil]
  · rw [hparts, List.concat_eq_append, List.getLastD_concat]
    exact h name (by simp [hparts])

/-- No component of a path that was read holds a slash. -/
theorem Path.slash_notMem_of_mem_parts {text part : String} (h : part ∈ (Path.ofText text).parts) :
    '/' ∉ part.toList := by
  obtain ⟨piece, hpiece, rfl⟩ := List.mem_map.1 (List.mem_filter.1 h).1
  rw [String.toList_ofList]
  exact slash_notMem_of_mem_slashPieces hpiece

theorem Path.slash_notMem_name (text : String) : '/' ∉ (Path.ofText text).name.toList :=
  Path.notMem_name fun _ => slash_notMem_of_mem_parts

/-- A text without slashes is one piece. -/
theorem slashPieces_of_notMem : ∀ {cs : List Char}, '/' ∉ cs → slashPieces cs = [cs]
  | [], _ => rfl
  | c :: cs, h => by
    rw [List.mem_cons, not_or] at h
    rw [slashPieces, if_neg (Ne.symm h.1), slashPieces_of_notMem h.2]

/-- A text without slashes is read as one component, unless it is empty or a dot. -/
theorem Path.ofText_of_slash_notMem {text : String} (h : '/' ∉ text.toList) :
    Path.ofText text = ⟨.relative, if text = "" ∨ text = "." then [] else [text]⟩ := by
  have hanchor : Anchor.ofChars text.toList = .relative := by
    unfold Anchor.ofChars
    split <;> simp_all
  unfold Path.ofText
  rw [hanchor, slashPieces_of_notMem h]
  by_cases hempty : text = ""
  · simp [hempty]
  · by_cases hdot : text = "."
    · simp [hdot]
    · simp [hempty, hdot]

/-! ## U+0000 -/

namespace Path

/-- A path can be handed to the file system if each of its components can. -/
theorem hasNul_eq_false_iff {p : Path} :
    p.hasNul = false ↔ ∀ part ∈ p.parts, Char.ofNat 0 ∉ part.toList := by
  simp [hasNul, List.any_eq_false]

theorem hasNul_ofText {text : String} (h : Char.ofNat 0 ∉ text.toList) :
    (ofText text).hasNul = false :=
  hasNul_eq_false_iff.2 fun _ hpart => notMem_of_mem_parts h hpart

/-- A path with another one behind it can be handed to the file system if both can. -/
theorem hasNul_join {p q : Path} (hp : p.hasNul = false) (hq : q.hasNul = false) :
    (p.join q).hasNul = false := by
  unfold join
  split
  · refine hasNul_eq_false_iff.2 fun part hpart => ?_
    rcases List.mem_append.1 hpart with h | h
    · exact hasNul_eq_false_iff.1 hp part h
    · exact hasNul_eq_false_iff.1 hq part h
  · exact hq

/-- The name of a path that can be handed to the file system can be part of another one. -/
theorem nul_notMem_name {p : Path} (hp : p.hasNul = false) : Char.ofNat 0 ∉ p.name.toList :=
  notMem_name (hasNul_eq_false_iff.1 hp)

end Path

end Folio
