import Folio.Document.Medium

/-!
# Rehearsals

Documents that are kept in memory, to go through a batch without reading or writing real ones.
Sources are lists of boxes, the content of a page is its label, and a draft is saved as a few lines
of text. A plan says which operations are to fail.
-/

namespace Folio.Rehearsal

/-- A source. Opening it gives the source itself. -/
structure Source where
  name : String
  boxes : List (Box Float)
  /-- The permissions that are granted, or all of them. -/
  permissions : Option (List Permission)
  /-- Opening the source fails. -/
  broken : Bool
  /-- Closing the source fails. -/
  stuck : Bool

/-- How saving a draft fails. -/
inductive SaveFault where
  | diskFull
  | deviceLost
  deriving DecidableEq, Repr

/-- The failure of a save. -/
def SaveFault.failure : SaveFault → Failure
  | diskFull => .diskFull
  | deviceLost => .deviceLost

/-- A page of a draft. -/
structure Page where
  label : String
  crop : Option (Box Float)

/-- A draft, with the positions that pages were moved from. -/
structure Draft where
  pages : List Page
  version : Option String
  title : Option String
  moved : List Int
  saveFault : Option SaveFault
  stuck : Bool

/-- Which operations on drafts fail. -/
structure Plan where
  /-- How saving fails, if it does. -/
  saveFault : Option SaveFault
  /-- The number of the draft that fails to be saved; the first one has number `1`. -/
  faultyDraft : Int
  /-- Closing drafts fails. -/
  stuck : Bool

/-- A plan on which nothing fails. -/
def Plan.smooth : Plan := ⟨none, 1, false⟩

/-- The pages of a source; each is labelled with the name of the source and its number. -/
def Source.pages (s : Source) : List (SourcePage String) :=
  s.boxes.mapIdx fun i box => ⟨s!"{s.name}#{i + 1}", box⟩

/-- A page as a line of text. -/
def Page.line (p : Page) : String :=
  match p.crop with
  | none => s!"{p.label} None"
  | some box => s!"{p.label} {Text.coordinates box.toList}"

namespace Draft

/-- A draft without pages. -/
def empty (saveFault : Option SaveFault) (stuck : Bool) : Draft :=
  ⟨[], none, none, [], saveFault, stuck⟩

/-- A draft as text: version, title and pages, one on each line. -/
def text (d : Draft) : String :=
  let version := "version " ++ d.version.getD "None"
  let title := "title " ++ d.title.getD "None"
  "\n".intercalate (version :: title :: d.pages.map Page.line)

/-- Moves a page to the end and remembers the position, whether or not there is a page. -/
def moveToEnd (p : Int) (d : Draft) : Except Failure Unit × Draft :=
  let d := { d with moved := d.moved ++ [p] }
  match Pages.move p d.pages with
  | .ok pages => (.ok (), { d with pages })
  | .error f => (.error (.move f), d)

end Draft

/-- The medium of a rehearsal. -/
def medium (plan : Plan) : Medium Source Source String Draft where
  name s := s.name
  text s := s.name
  openSource _ s := if s.broken then .error (.sourceOpen s.name .broken) else .ok s
  sourceName s := s.name
  ensure permission s :=
    match s.permissions with
    | none => .ok ()
    | some granted =>
      if permission ∈ granted then .ok () else .error (.permissionDenied s.name permission)
  pages s := s.pages.map .ok
  sourceCloses s := !s.stuck
  newDraft made :=
    .ok (.empty (if plan.faultyDraft = made + 1 then plan.saveFault else none) plan.stuck)
  draftName _ := "<new>"
  setVersion version d := .ok { d with version }
  describe s d := (.ok (), { d with title := some s.name })
  addPage label crop d := { d with pages := d.pages ++ [⟨label, crop⟩] }
  pageCount d := d.pages.length
  moveToEnd := Draft.moveToEnd
  sent d := d
  content d :=
    match d.saveFault with
    | some fault => .error fault.failure
    | none => .ok (.text d.text)
  unsaved _ _ e := .file e
  savedNotes _ _ := []
  draftCloses d := !d.stuck

end Folio.Rehearsal
