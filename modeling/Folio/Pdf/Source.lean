import Folio.Document.Medium

/-!
# Document files as sources

A source names a document file and may bring a password. Opening it reads the file and settles
the access: the owner password gives everything, the user password what the flags grant.
-/

namespace Folio.Pdf

/-- A document file to read. -/
structure Source where
  path : Path
  password : Option String
  name : String

/-- A source without a name of its own is called by the last component of its path. -/
def Source.of (path : Path) (password name : Option String) : Source :=
  ⟨path, password, name.getD path.name⟩

/-- An opened document. Once it is closed there is no file left to read. -/
structure Handle where
  name : String
  /-- Was the owner password given? -/
  owner : Bool
  file : Option File
  /-- The page layout and the page mode, once they have been read. -/
  catalogue : Option Description

/-- What a password gives access to. -/
inductive Access where
  | owner
  | user
  | refused
  deriving DecidableEq, Repr

/-- The access that a password gives; the owner password is tested first. -/
def Encryption.access (e : Encryption) (password : String) : Access :=
  if password = e.owner then .owner
  else if password = e.user then .user
  else .refused

namespace Source

/-- The failure to open a source. -/
def failure (s : Source) (fault : OpenFault) : Failure := .sourceOpen s.path.text fault

/-- Settles the access to a document that has been read. -/
def unlock (s : Source) (file : File) : Except Failure Handle :=
  match file.encryption with
  | none => .ok ⟨s.name, false, some file, none⟩
  | some e =>
    match e.access (s.password.getD "") with
    | .owner => .ok ⟨s.name, true, some file, none⟩
    | .user => .ok ⟨s.name, false, some file, none⟩
    | .refused => .error (s.failure .wrongPassword)

/-- Opens a source. -/
def openIn (t : FileTree) (s : Source) : Except Failure Handle :=
  match t.read s.path with
  | .error .embeddedNul => .error (.file .embeddedNul)
  | .error e => .error (s.failure (.file e))
  | .ok (.text _) => .error (s.failure .unreadable)
  | .ok (.document file) => s.unlock file

end Source

namespace Handle

/-- The pages that can still be read. -/
def pages (h : Handle) : List Page := (h.file.map File.pages).getD []

/-- Refuses a permission, unless the document is not encrypted, the owner reads it, or its flags
grant the permission. -/
def ensure (permission : Permission) (h : Handle) : Except Failure Unit :=
  match h.file.bind File.encryption with
  | none => .ok ()
  | some e =>
    if h.owner ∨ permission.grantedBy e.flags then .ok ()
    else .error (.permissionDenied h.name permission)

/-- The page with a number; the first one has number `1`, and numbers from `0` downwards count
from the end. -/
def page (h : Handle) (number : Int) : Except Failure Page :=
  match Pages.place? h.pages.length number >>= fun i => h.pages[i]? with
  | some page => .ok page
  | none => .error .noSourcePage

/-- A document whose catalogue is read; the pages can only be found through it. -/
def consult (h : Handle) : Handle :=
  match h.file with
  | some file => { h with catalogue := some { file.description with info := [] } }
  | none => h

/-- A closed document has nothing left to read, but what was read of its catalogue is kept. -/
def close (h : Handle) : Handle := { h with file := none }

end Handle

/-- A page as it is split: the box that is cut is the trim box. -/
def Page.forSplitting (p : Page) : SourcePage Page := ⟨p, p.trim⟩

end Folio.Pdf
