import Mathlib.Algebra.Group.Nat.Defs
import Mathlib.Logic.Function.Iterate
import Folio.Proofs.Document.Descriptions
import Folio.Proofs.Document.SavedForm

/-!
# Splitting split documents again

`File.split` is the file that a document file becomes when it is split without a version of its own
and without another order. Every split reads the trim boxes and sets the crop boxes, so a document
that is split again is cut along the same lines and its pages are the same halves, each more often
(`getElem?_pages_iterate`). Header and description change with the first split only.
-/

namespace Folio

namespace Pdf

/-! ## Headers -/

/-- Characters that take one byte each are taken one by one. -/
theorem firstBytes_of_ascii : ∀ (width : Nat) (cs : List Char), (∀ c ∈ cs, c.toNat < 128) →
    firstBytes width cs = (cs.take width, width - cs.length)
  | width, [], _ => by simp [firstBytes]
  | 0, c :: cs, h => by
    have hc : ¬ c.utf8Size ≤ 0 := by
      have := c.utf8Size_pos
      omega
    simp [firstBytes, hc]
  | width + 1, c :: cs, h => by
    obtain ⟨hc, hcs⟩ := List.forall_mem_cons.1 h
    have hsize : c.utf8Size = 1 := by
      rw [Char.utf8Size_eq_one_iff]
      exact Nat.le_of_lt_succ hc
    rw [firstBytes, hsize, if_pos (by omega), Nat.add_sub_cancel, firstBytes_of_ascii width cs hcs]
    simp

/-- A text that is shorter than the marker has none in it. -/
theorem dropMarker_of_length_lt {marker : List Char} :
    ∀ {cs : List Char}, cs.length < marker.length → dropMarker marker 0 cs = cs
  | [], _ => rfl
  | c :: cs, h => by
    have hfront : marker.isPrefixOf (c :: cs) = false := by
      rw [Bool.eq_false_iff, ne_eq, List.isPrefixOf_iff_prefix]
      intro hle
      have := hle.length_le
      omega
    rw [dropMarker, if_neg (by simp [hfront]),
      dropMarker_of_length_lt (Nat.lt_of_succ_lt h)]

/-- A marker at the beginning is dropped. -/
theorem dropMarker_append {marker : List Char} (hmarker : marker ≠ []) (cs : List Char) :
    dropMarker marker 0 (marker ++ cs) = dropMarker marker 0 cs := by
  have hskip : ∀ xs : List Char,
      dropMarker marker xs.length (xs ++ cs) = dropMarker marker 0 cs := by
    intro xs
    induction xs with
    | nil => rfl
    | cons x xs ih => exact ih
  cases marker with
  | nil => exact absurd rfl hmarker
  | cons c marker =>
    have hfront : (c :: marker).isPrefixOf (c :: (marker ++ cs)) = true := by
      rw [List.isPrefixOf_iff_prefix]
      exact List.prefix_append (c :: marker) cs
    rw [List.cons_append, dropMarker, if_pos hfront]
    exact hskip marker

namespace File

/-- A file with a header of at least eight characters, all of ASCII, that starts as headers
should. -/
structure Headed (f : File) : Prop where
  marker : headerMarker <+: f.header.toList
  length : versionWidth ≤ f.header.toList.length
  ascii : ∀ c ∈ f.header.toList, c.toNat < 128

namespace Headed

variable {f : File}

/-- The first eight characters are the marker and three more. -/
theorem marker_append (h : f.Headed) :
    headerMarker ++ (f.header.toList.take versionWidth).drop headerMarker.length =
      f.header.toList.take versionWidth := by
  refine List.prefix_iff_eq_append.1 (List.prefix_of_prefix_length_le h.marker
    (List.take_prefix ..) ?_)
  rw [List.length_take, Nat.min_eq_left h.length]
  decide

theorem length_drop (h : f.Headed) :
    ((f.header.toList.take versionWidth).drop headerMarker.length).length = 3 := by
  rw [List.length_drop, List.length_take, Nat.min_eq_left h.length]
  rfl

/-- The version is told by the three characters behind the marker. -/
theorem version_eq (h : f.Headed) :
    f.version = String.ofList ((f.header.toList.take versionWidth).drop headerMarker.length) := by
  have hleft : versionWidth - f.header.toList.length = 0 := Nat.sub_eq_zero_of_le h.length
  have hshort : ((f.header.toList.take versionWidth).drop headerMarker.length).length <
      headerMarker.length := by
    rw [h.length_drop]
    decide
  unfold File.version
  rw [firstBytes_of_ascii _ _ h.ascii, hleft]
  simp only [List.take_zero, List.flatten_nil, List.append_nil]
  conv_lhs => rw [← h.marker_append]
  rw [dropMarker_append (by decide), dropMarker_of_length_lt hshort]

end Headed

/-- What a file becomes when it is split without a version of its own and without another order. -/
def split (f : File) : File where
  header := "%PDF-" ++ shownVersion f.version
  pages := Pages.leaves (f.pages.map fun p => pageView.leaf p.forSplitting)
  description := initialDescription.overlay f.description
  encryption := none
  drafted := true

/-- The header of a split file is the beginning of the header of the file. -/
theorem Headed.header_split {f : File} (h : f.Headed) :
    f.split.header.toList = f.header.toList.take versionWidth := by
  have hversion : f.version ≠ "" := by
    intro hempty
    have hlength := h.length_drop
    rw [h.version_eq] at hempty
    rw [← String.toList_ofList (l := List.drop _ _), hempty] at hlength
    cases hlength
  have hheader : f.split.header = "%PDF-" ++ f.version := by
    rw [split, shownVersion, if_neg hversion]
  rw [hheader, h.version_eq, String.toList_append, String.toList_ofList (l := List.drop _ _)]
  exact h.marker_append

/-- A split file has a proper header again. -/
theorem Headed.split {f : File} (h : f.Headed) : f.split.Headed where
  marker := by
    rw [h.header_split, ← h.marker_append]
    exact List.prefix_append ..
  length := by
    rw [h.header_split, List.length_take]
    exact Nat.le_min.2 ⟨Nat.le_refl _, h.length⟩
  ascii c hc := by
    rw [h.header_split] at hc
    exact h.ascii c (List.mem_of_mem_take hc)

end File

/-! ## Pages -/

/-- The page that a page becomes at an index from `0`: a copy, cropped to the first half of its trim
box where the index is even and to the second half where it is odd. -/
def Page.half (j : Nat) (p : Page) : Page :=
  { p with crop :=
      if j % 2 = 0 then p.forSplitting.halves.1.box else p.forSplitting.halves.2.box }

namespace File

theorem getElem?_pages_split (f : File) (j : Nat) :
    f.split.pages[j]? = f.pages[j / 2]?.map (Page.half j) := by
  show (Pages.leaves (f.pages.map fun p => pageView.leaf p.forSplitting))[j]? = _
  rw [Pages.getElem?_leaves, List.getElem?_map, Option.map_map]
  refine Option.map_congr fun p _ => ?_
  simp only [Function.comp_apply, Page.half]
  split <;> rfl

/-- **Every page of a file that was split again and again** is a half of a page of the file, cut
once: each split before the last doubles the pages and leaves the trim boxes. -/
theorem getElem?_pages_iterate (f : File) (k j : Nat) :
    (split^[k + 1] f).pages[j]? = f.pages[j / 2 ^ (k + 1)]?.map (Page.half j) := by
  induction k generalizing j with
  | zero => exact getElem?_pages_split f j
  | succ k ih =>
    have hindex : j / 2 / 2 ^ (k + 1) = j / 2 ^ (k + 2) := by
      rw [Nat.div_div_eq_div_mul, ← Nat.pow_succ']
    rw [Function.iterate_succ_apply', getElem?_pages_split, ih, Option.map_map, hindex]
    rfl

theorem length_pages_iterate (f : File) (k : Nat) :
    (split^[k] f).pages.length = 2 ^ k * f.pages.length := by
  induction k with
  | zero => simp
  | succ k ih =>
    rw [Function.iterate_succ_apply']
    show (Pages.leaves ((split^[k] f).pages.map fun p => pageView.leaf p.forSplitting)).length = _
    rw [Pages.length_leaves, List.length_map, ih, Nat.pow_succ', Nat.mul_assoc]

/-- A header is cut by the first split and kept by all others. -/
theorem Headed.header_iterate {f : File} (h : f.Headed) (k : Nat) :
    (File.split^[k + 1] f).Headed ∧
      (File.split^[k + 1] f).header.toList = f.header.toList.take versionWidth := by
  induction k with
  | zero => exact ⟨h.split, h.header_split⟩
  | succ k ih =>
    obtain ⟨hheaded, hheader⟩ := ih
    rw [Function.iterate_succ_apply']
    refine ⟨hheaded.split, ?_⟩
    rw [hheaded.header_split, hheader, List.take_take, Nat.min_self]

/-- A description is laid over that of a new draft by the first split and kept by all others. -/
theorem description_iterate (f : File) (k : Nat) :
    (split^[k + 1] f).description = initialDescription.overlay f.description := by
  induction k with
  | zero => rfl
  | succ k ih =>
    rw [Function.iterate_succ_apply']
    show initialDescription.overlay (split^[k + 1] f).description = _
    rw [ih, initialDescription_overlay_overlay]

/-- The boxes that are cut are those of the file, however often it was split. -/
theorem forall_trim_iterate {P : Box Float → Prop} {f : File} (h : ∀ p ∈ f.pages, P p.trim)
    (k : Nat) : ∀ p ∈ (split^[k] f).pages, P p.trim := by
  cases k with
  | zero => exact h
  | succ k =>
    intro p hp
    obtain ⟨j, hj⟩ := List.getElem?_of_mem hp
    rw [getElem?_pages_iterate] at hj
    obtain ⟨q, hq, rfl⟩ := Option.map_eq_some_iff.1 hj
    exact h q (List.mem_of_getElem? hq)

end File

/-! ## Split documents -/

/-- What a file becomes that is split a number of times, each time from the file before: every page
is a copy of a page of the file, cropped to the first half of its trim box where the index, from
`0`, is even and to the second half where it is odd. -/
structure File.SplitTimes (k : Nat) (f f' : File) : Prop where
  length_pages : f'.pages.length = 2 ^ k * f.pages.length
  getElem?_pages : ∀ {j page}, f.pages[j / 2 ^ k]? = some page → ∃ first second,
    page.trim.Halved (first, second) ∧
      f'.pages[j]? = some { page with crop := if j % 2 = 0 then first.box else second.box }
  header : f'.header.toList = f.header.toList.take 8
  description : f'.description = initialDescription.overlay f.description

/-- A page of a file that was split a number of times, if the halves of its trim box are known. -/
theorem File.SplitTimes.getElem?_of_halved {k j : Nat} {f f' : File} {first second : Half Float}
    (h : File.SplitTimes k f f') (page : Page)
    (hpage : f.pages[j / 2 ^ k]? = some page) (hhalved : page.trim.Halved (first, second)) :
    f'.pages[j]? = some { page with crop := if j % 2 = 0 then first.box else second.box } := by
  obtain ⟨first', second', hhalved', hget⟩ := h.getElem?_pages hpage
  obtain ⟨rfl, rfl⟩ := Prod.mk.inj (hhalved.unique hhalved')
  exact hget

/-- A file with a proper header is split any number of times. -/
theorem File.Headed.splitTimes {f : File} (h : f.Headed) (k : Nat) :
    File.SplitTimes (k + 1) f (File.split^[k + 1] f) where
  length_pages := length_pages_iterate f (k + 1)
  getElem?_pages {j page} hpage := by
    refine ⟨page.forSplitting.halves.1, page.forSplitting.halves.2, Box.halved_halves _, ?_⟩
    rw [getElem?_pages_iterate, hpage]
    rfl
  header := (h.header_iterate k).2
  description := description_iterate f k

/-- Pages that are saved in the order of the source are all there is to the split form of a
document that keeps its version. -/
theorem eq_split_of_isSplitForm {settings : Settings Source} {handle : Handle} {f : File}
    {c : Content} (h : draftView.IsSplitForm settings handle c) (hversion : settings.version = none)
    (hmode : settings.repagination = .none) (hfile : handle.file = some f) :
    c = .document f.split := by
  obtain ⟨pages, halves, new, hpages, hhalves, hnew, rfl⟩ := h
  have hread : medium.pages handle = (f.pages.map Page.forSplitting).map .ok := by
    simp [medium, Handle.pages, hfile]
  obtain rfl : pages = f.pages.map Page.forSplitting := by
    have := hpages.symm.trans hread
    exact (List.map_injective_iff.2 fun _ _ h => Except.ok.inj h) this
  have hleaves : halves = Pages.leaves (f.pages.map fun p => pageView.leaf p.forSplitting) := by
    rw [hhalves.eq_leaves, List.map_map]
    rfl
  have hall : new = halves := by
    rw [hmode, ← hhalves.length] at hnew
    exact (List.map_injective_iff.2 fun _ _ => Option.some.inj)
      (hnew.trans (Repagination.map_getElem?_range' _))
  have hversion' : draftView.version none handle = some f.version := by
    simp [draftView, hfile]
  have hcarried : draftView.carried handle = initialDescription.overlay f.description := by
    simp [draftView, Handle.carried, hfile]
  rw [hall, hleaves, hversion, hversion', hcarried]
  rfl

end Pdf

end Folio
