import Folio.Naming.Template
import Folio.Naming.Timestamp
import Folio.Path

/-!
# Output names

The name of an output is made from a pattern, the name of the source, its number in the batch and
the time. A pattern without placeholders goes in front of the name of the source; one with
placeholders gives the whole name, which is completed to a document name if it is not one.
-/

namespace Folio.Naming

/-- What a name is made from, the pattern apart. -/
structure Subject where
  /-- The name of the source; of a path, only the last component counts. -/
  source : String
  /-- The number of the source in the batch. -/
  number : Int
  time : Instant

/-- The digits of an integer, with its sign if it is negative. -/
def integerChars (n : Int) : List Char :=
  if n < 0 then '-' :: Nat.toDigits 10 n.natAbs else Nat.toDigits 10 n.natAbs

namespace Subject

/-- The last component of the name of the source. -/
def fileName (s : Subject) : List Char := (Path.ofText s.source).name.toList

/-- What a placeholder is replaced by. -/
def value (s : Subject) : Field → List Char
  | .baseName => FileName.stem s.fileName
  | .fileNumber => integerChars s.number
  | .timestamp => s.time.timestampChars

end Subject

/-- Does a name end in the document suffix, in some letter case? -/
def isDocumentName (name : List Char) : Bool :=
  FileName.documentSuffix.isSuffixOf (FileName.lower name)

/-- The name with the document suffix behind it, unless it ends in it. -/
def completed (name : List Char) : List Char :=
  if isDocumentName name then name else name ++ FileName.documentSuffix

/-- The characters of the output name. -/
def outputChars (pattern : List Char) (s : Subject) : List Char :=
  let pieces := Template.scan pattern
  if Template.hasField pieces then completed (Template.fill s.value pieces)
  else pattern ++ s.fileName

/-- The output name of a source. -/
def outputName (pattern : String) (s : Subject) : String :=
  String.ofList (outputChars pattern.toList s)

end Folio.Naming
