import Folio.Pdf.Header
import Folio.Pdf.Source

/-!
# Document files in the making

A draft collects pages and is written to a file when it is saved. Pages are kept on sheets with an
identity: a sheet that was written once is written again by every later save, as it is by then.
-/

namespace Folio.Pdf

/-- A page of a draft, with its identity. -/
structure Sheet where
  number : Nat
  page : Page

/-- A document in the making. -/
structure Draft where
  name : String
  /-- The pages, in their present order. -/
  sheets : List Sheet
  /-- What earlier saves have written. -/
  written : List Sheet
  /-- The identity of the next sheet. -/
  next : Nat
  version : Option String
  description : Description

/-- Information with one entry set; an entry that exists keeps its place. -/
def setInfo (info : List (String × String)) (key value : String) : List (String × String) :=
  if info.any (·.1 = key) then info.map fun (k, v) => if k = key then (k, value) else (k, v)
  else info ++ [(key, value)]

/-- A description with another one laid over it: entries of the information one by one, layout
and mode if there are any. -/
def Description.overlay (base top : Description) : Description where
  info := top.info.foldl (fun info (k, v) => setInfo info k v) base.info
  layout := top.layout <|> base.layout
  mode := top.mode <|> base.mode

/-- What describes a draft at first. -/
def initialDescription : Description := ⟨[("/Producer", "pypdf")], none, none⟩

namespace Draft

/-- A draft without pages. -/
def empty : Draft := ⟨"<new document>", [], [], 0, none, initialDescription⟩

/-- Sets the version; without one the draft is left alone. -/
def setVersion (version : Option String) (d : Draft) : Except Failure Draft :=
  match version with
  | none => .ok d
  | some v =>
    if v ∈ versions then .ok { d with version := some v } else .error (.unsupportedVersion v)

/-- Takes over what describes a document, and its version unless one is set. Of a closed document
only the catalogue can be taken over, if it was read before. -/
def describe (h : Handle) (d : Draft) : Except Failure Unit × Draft :=
  match h.file, h.catalogue with
  | some file, _ =>
    (.ok (), { d with
      description := d.description.overlay file.description
      version := d.version <|> some file.version })
  | none, none => (.error .catalogueMissing, d)
  | none, some catalogue =>
    (if d.version.isSome then .ok () else .error .sourceClosed,
      { d with description := d.description.overlay catalogue })

/-- Adds a copy of a page, cropped or as it is. -/
def addPage (page : Page) (crop : Option (Box Float)) (d : Draft) : Draft :=
  { d with
    sheets := d.sheets ++ [⟨d.next, { page with crop := crop.getD page.crop }⟩]
    next := d.next + 1 }

/-- Crops a sheet wherever it lies. -/
def cropSheet (number : Nat) (box : Box Float) (sheets : List Sheet) : List Sheet :=
  sheets.map fun s =>
    if s.number = number then { s with page := { s.page with crop := box } } else s

/-- Crops the page at an index from `0`; negative ones count from the end. -/
def crop (index : Int) (box : Box Float) (d : Draft) : Except Failure Draft :=
  match Pages.place? d.sheets.length (index + 1) >>= fun i => d.sheets[i]? with
  | none => .error (if Pages.isIndex index then .noDraftPage else .unusableIndex)
  | some sheet =>
    .ok { d with
      sheets := cropSheet sheet.number box d.sheets
      written := cropSheet sheet.number box d.written }

/-- Moves the page at a position to the end; only positions from `1` are pages. -/
def moveToEnd (p : Int) (d : Draft) : Except Failure Unit × Draft :=
  if 1 ≤ p ∧ p ≤ d.sheets.length then
    (.ok (), { d with sheets := Pages.moveToEnd (p - 1).toNat d.sheets })
  else (.error (.noPageAtPosition p d.sheets.length), d)

/-- Saving writes all pages behind those of earlier saves. -/
def sent (d : Draft) : Draft := { d with written := d.written ++ d.sheets }

/-- The header of the file. -/
def header (d : Draft) : String :=
  match d.version with
  | none | some "" => "%PDF-1.3"
  | some v => "%PDF-" ++ v

/-- The file that a draft is written as. -/
def toFile (d : Draft) : File where
  header := d.header
  pages := d.written.map Sheet.page
  description := d.description
  encryption := none
  drafted := true

/-- A closed draft has no pages; what was written is not forgotten. -/
def close (d : Draft) : Draft := { d with sheets := [] }

end Draft

/-- The medium of document files. -/
def medium : Medium Source Handle Page Draft where
  name s := s.name
  text s := s.path.text
  openSource := Source.openIn
  sourceName h := h.name
  ensure := Handle.ensure
  pages h := h.pages.map fun page => .ok page.forSplitting
  sourceCloses _ := true
  newDraft _ := .ok .empty
  draftName d := d.name
  setVersion := Draft.setVersion
  describe := Draft.describe
  addPage := Draft.addPage
  pageCount d := d.sheets.length
  moveToEnd := Draft.moveToEnd
  sent := Draft.sent
  content d := .ok (.document d.toFile)
  unsaved d p e := if e.isSystem then .draftUnsaved d.name p.text e else .file e
  savedNotes d p := [Log.debug "documents" s!"Saved {d.sheets.length} pages to {p.text}"]
  draftCloses _ := true

end Folio.Pdf
