import Folio.Lookup
import Folio.Pdf.Draft

/-!
# Descriptions laid over each other

What a document is described by once another description has been laid over its own: keys stay
distinct (`nodup_foldl_setInfo`), and under a key there is the last value that was set
(`lookup_foldl_setInfo`). To lay a description over that of a new draft a second time changes
nothing (`initialDescription_overlay_overlay`).
-/

namespace Folio.Pdf

/-! ## Keys -/

/-- Setting an entry keeps the keys, or adds one at the end. -/
theorem map_fst_setInfo (info : List (String × String)) (key value : String) :
    (setInfo info key value).map Prod.fst =
      if key ∈ info.map Prod.fst then info.map Prod.fst else info.map Prod.fst ++ [key] := by
  have hany : info.any (·.1 = key) = true ↔ key ∈ info.map Prod.fst := by
    simp
  unfold setInfo
  by_cases hkey : key ∈ info.map Prod.fst
  · rw [if_pos (hany.2 hkey), if_pos hkey, List.map_map]
    refine List.map_congr_left fun x _ => ?_
    simp only [Function.comp_apply]
    split <;> rfl
  · rw [if_neg fun h => hkey (hany.1 h), if_neg hkey, List.map_append]
    rfl

/-- Entries that are set keep keys distinct and the old keys in front. -/
theorem nodup_foldl_setInfo : ∀ (top : List (String × String)) {info : List (String × String)},
    (info.map Prod.fst).Nodup →
    ((top.foldl (fun info (k, v) => setInfo info k v) info).map Prod.fst).Nodup ∧
      info.map Prod.fst <+: (top.foldl (fun info (k, v) => setInfo info k v) info).map Prod.fst
  | [], info, h => ⟨h, List.prefix_rfl⟩
  | (k, v) :: top, info, h => by
    have hkeys := map_fst_setInfo info k v
    have hstep : ((setInfo info k v).map Prod.fst).Nodup ∧
        info.map Prod.fst <+: (setInfo info k v).map Prod.fst := by
      rw [hkeys]
      split
      · exact ⟨h, List.prefix_rfl⟩
      · next hk =>
        exact ⟨List.nodup_append.2 ⟨h, by simp, by grind⟩, List.prefix_append ..⟩
    obtain ⟨hnodup, hfront⟩ := nodup_foldl_setInfo top hstep.1
    exact ⟨hnodup, hstep.2.trans hfront⟩

/-- Entries under keys that are not there yet are added one by one. -/
theorem foldl_setInfo_of_nodup : ∀ {top info : List (String × String)},
    ((info ++ top).map Prod.fst).Nodup →
      top.foldl (fun info (k, v) => setInfo info k v) info = info ++ top
  | [], info, _ => (List.append_nil _).symm
  | (k, v) :: top, info, h => by
    have hk : info.any (·.1 = k) = false := by
      rw [List.map_append, List.nodup_append] at h
      simp only [List.any_eq_false, decide_eq_true_eq]
      intro x hx
      exact h.2.2 x.1 (List.mem_map_of_mem hx) k (by simp)
    have hset : setInfo info k v = info ++ [(k, v)] := by
      rw [setInfo, if_neg (by simp [hk])]
    rw [List.foldl_cons]
    dsimp only
    rw [hset, foldl_setInfo_of_nodup (by simpa using h), List.append_assoc]
    rfl

/-! ## Values -/

/-- An entry that is set is found under its key, and nothing else changes. -/
theorem lookup_setInfo (info : List (String × String)) (key value k : String) :
    (setInfo info key value).lookup k = if k = key then some value else info.lookup k := by
  have hany : info.any (·.1 = key) = (info.lookup key).isSome := by
    rw [Bool.eq_iff_iff, List.any_eq_true, ← Option.ne_none_iff_isSome, ne_eq,
      List.lookup_eq_none_iff]
    grind
  unfold setInfo
  by_cases hkey : (info.lookup key).isSome = true
  · rw [hany, if_pos hkey, lookup_replace]
    simp [hkey]
  · rw [hany, if_neg hkey, lookup_append_single _ _ _ _ (Option.not_isSome_iff_eq_none.1 hkey)]

/-- Of the entries that are set one after the other the last one under a key is found, and for want
of any what was there before. -/
theorem lookup_foldl_setInfo : ∀ (top info : List (String × String)) (k : String),
    (top.foldl (fun info (k, v) => setInfo info k v) info).lookup k =
      (top.reverse.lookup k).or (info.lookup k)
  | [], info, k => rfl
  | (key, value) :: top, info, k => by
    rw [List.foldl_cons, lookup_foldl_setInfo top, lookup_setInfo, List.reverse_cons,
      List.lookup_append, Option.or_assoc, lookup_cons_eq]
    congr 1
    split <;> rfl

/-! ## Layers -/

/-- The information of a document that is laid over that of a new draft. -/
theorem lookup_info_overlay (top : Description) (key : String) :
    (initialDescription.overlay top).info.lookup key = (top.info.reverse.lookup key).or
      (if key = "/Producer" then some "pypdf" else none) := by
  rw [Description.overlay, lookup_foldl_setInfo, initialDescription, lookup_cons_eq,
    List.lookup_nil]

/-- What describes a split document is not changed by another split. -/
theorem initialDescription_overlay_overlay (top : Description) :
    initialDescription.overlay (initialDescription.overlay top) =
      initialDescription.overlay top := by
  have hbase : (initialDescription.info.map Prod.fst).Nodup := by decide
  obtain ⟨hnodup, hfront⟩ := nodup_foldl_setInfo top.info hbase
  have hinfo : (initialDescription.overlay top).info.foldl (fun info (k, v) => setInfo info k v)
      initialDescription.info = (initialDescription.overlay top).info := by
    change (((initialDescription.overlay top).info.map Prod.fst)).Nodup at hnodup
    change _ <+: (initialDescription.overlay top).info.map Prod.fst at hfront
    generalize (initialDescription.overlay top).info = info at hnodup hfront
    rcases info with _ | ⟨⟨k, v⟩, info⟩
    · exact absurd hfront.length_le (by decide)
    · obtain ⟨hk, -⟩ := List.cons_prefix_cons.1 hfront
      obtain rfl : "/Producer" = k := hk
      have hset : setInfo initialDescription.info "/Producer" v = [("/Producer", v)] := by
        simp [setInfo, initialDescription]
      rw [List.foldl_cons]
      dsimp only
      rw [hset]
      exact foldl_setInfo_of_nodup hnodup
  unfold Description.overlay at hinfo ⊢
  dsimp only at hinfo ⊢
  rw [hinfo]
  simp [initialDescription]

end Folio.Pdf
