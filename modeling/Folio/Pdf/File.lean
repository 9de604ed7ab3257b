import Folio.Geometry.Box

/-!
# Document files

What a reader sees of a document file: its header line, its pages with their boxes, the document
information, the page layout and mode, and the passwords that protect it.
-/

namespace Folio.Pdf

/-- A page as a reader sees it. -/
structure Page where
  label : String
  media : Box Float
  crop : Box Float
  trim : Box Float
  rotate : Option Int
  deriving Inhabited

/-- A page from the boxes that it declares: a missing crop box is the media box, and a missing trim
box is the crop box. -/
def Page.of (label : String) (media : Box Float) (crop trim : Option (Box Float))
    (rotate : Option Int) : Page :=
  ⟨label, media, crop.getD media, trim.getD (crop.getD media), rotate⟩

/-- The protection of a document. The owner password gives every permission, the user password
those of the flags. -/
structure Encryption where
  user : String
  owner : String
  flags : Int
  deriving Repr

/-- Without an owner password of its own, a document is owned with the user password. -/
def Encryption.of (user : String) (owner : Option String) (flags : Option Int) : Encryption :=
  ⟨user, match owner with | none | some "" => user | some o => o, flags.getD (-1)⟩

/-- The document information, the page layout and the page mode. -/
structure Description where
  info : List (String × String)
  layout : Option String
  mode : Option String
  deriving DecidableEq, Repr

/-- A document file. -/
structure File where
  /-- What the file begins with, up to the end of a line. -/
  header : String
  pages : List Page
  description : Description
  encryption : Option Encryption
  /-- Was the file written by a draft of this library? -/
  drafted : Bool

/-- The versions that a document can be given. -/
def versions : List String := ["1.0", "1.1", "1.2", "1.3", "1.4", "1.5", "1.6", "1.7", "2.0"]

end Folio.Pdf
