import Folio.Path
import Folio.Text.Quoted

/-!
# What goes wrong with files

A fault is the reason why one operation of the file system is refused. An error says which
operation it was, with the paths as they were given.
-/

namespace Folio

/-- Why the file system refuses an operation. -/
inductive Fault where
  | noEntry
  | busy
  | alreadyExists
  | notDirectory
  | isDirectory
  | invalid
  | nameTooLong
  | notEmpty
  deriving DecidableEq, Repr

namespace Fault

/-- The number of a fault. -/
def number : Fault → Nat
  | noEntry => 2
  | busy => 16
  | alreadyExists => 17
  | notDirectory => 20
  | isDirectory => 21
  | invalid => 22
  | nameTooLong => 36
  | notEmpty => 39

/-- The wording of a fault. -/
def text : Fault → String
  | noEntry => "No such file or directory"
  | busy => "Device or resource busy"
  | alreadyExists => "File exists"
  | notDirectory => "Not a directory"
  | isDirectory => "Is a directory"
  | invalid => "Invalid argument"
  | nameTooLong => "File name too long"
  | notEmpty => "Directory not empty"

end Fault

/-- Why an operation on files ends without success. -/
inductive FileError where
  /-- An operation on one path. -/
  | system (fault : Fault) (path : String)
  /-- An operation on two paths. -/
  | systemPair (fault : Fault) (source target : String)
  /-- Nothing is moved into a directory that has an entry of that name. -/
  | destinationExists (path : String)
  /-- A directory is not moved below itself. -/
  | intoItself (source target : String)
  /-- A path with U+0000 in it cannot be handed to the file system. -/
  | embeddedNul
  /-- Too many directories would have to be made for one. -/
  | tooDeep
  deriving DecidableEq, Repr

namespace FileError

/-- The wording of an error. -/
def message : FileError → String
  | system fault path => s!"[Errno {fault.number}] {fault.text}: {Text.quoted path}"
  | systemPair fault source target =>
    s!"[Errno {fault.number}] {fault.text}: {Text.quoted source} -> {Text.quoted target}"
  | destinationExists path => s!"Destination path '{path}' already exists"
  | intoItself source target => s!"Cannot move a directory '{source}' into itself '{target}'."
  | embeddedNul => "embedded null byte"
  | tooDeep => "maximum recursion depth exceeded while calling a Python object"

/-- Does the error come from the file system? One about U+0000 or about depth comes before it. -/
def isSystem : FileError → Bool
  | embeddedNul | tooDeep => false
  | _ => true

end FileError

end Folio
