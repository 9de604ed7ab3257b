import Folio.FileTree.Fault
import Folio.Geometry.Box
import Folio.Pages.Moves
import Folio.Permission
import Folio.Text.Lists

/-!
# Failures

Everything that can end a batch, or one operation of it, as a cause. `Failure.message` words a
failure and `Failure.kind` says what sort it is of. The sorts that belong to splitting itself
(`Kind.isSplitting`) are the ones that a user is told about; others are defects of the
surroundings or of a call.
-/

namespace Folio

/-- Why a source cannot be opened. -/
inductive OpenFault where
  | file (e : FileError)
  | unreadable
  | wrongPassword
  | broken
  deriving DecidableEq, Repr

/-- Why an operation fails. -/
inductive Failure where
  | sourceOpen (source : String) (fault : OpenFault)
  | permissionDenied (source : String) (permission : Permission)
  | degenerateBox (box : Box Float)
  | draftUnsaved (draft path : String) (e : FileError)
  | outputUnwritten (target : String) (e : FileError)
  | diskFull
  | repeatedName (name : String)
  | existingFiles (targets : List String)
  | file (e : FileError)
  | deviceLost
  | negativePageCount (count : Int)
  | unknownOrientation (word : String)
  | unknownRepagination (word : String)
  | unknownPermission (word : String)
  | unsupportedVersion (version : String)
  | noSource
  | noOutput
  | withheldOutput
  | withheldVersion
  | withheldRepagination
  | move (fault : Pages.MoveFault)
  | noPageAtPosition (position : Int) (count : Nat)
  | noSourcePage
  | noDraftPage
  | unusableIndex
  | sourceClosed
  | catalogueMissing
  | progressComplete (total : Int)
  | notifierFailed

namespace Failure

/-- What sort of failure it is. -/
inductive Kind where
  /-- The sort of all failures of splitting. -/
  | splitting
  | sourceOpen
  | permissionDenied
  | malformedGeometry
  | save
  | outputConflict
  | system (fault : Fault)
  /-- A refused operation without a fault of the file system. -/
  | device
  /-- A document that cannot be read any further. -/
  | reading
  /-- A value of the wrong type. -/
  | type
  | value
  | overflow
  | depth
  | index
  | key
  | runtime
  deriving DecidableEq, Repr

/-- Does a sort belong to splitting itself? -/
def Kind.isSplitting : Kind → Bool
  | splitting | sourceOpen | permissionDenied | malformedGeometry | save | outputConflict => true
  | _ => false

/-- The sort of an error on files. -/
def kindOfFile : FileError → Kind
  | .system fault _ => .system fault
  | .systemPair fault _ _ => .system fault
  | .destinationExists _ => .device
  | .intoItself _ _ => .device
  | .embeddedNul => .value
  | .tooDeep => .depth

/-- The sort of a failure. -/
def kind : Failure → Kind
  | sourceOpen _ _ => .sourceOpen
  | permissionDenied _ _ => .permissionDenied
  | degenerateBox _ => .malformedGeometry
  | draftUnsaved _ _ _ | outputUnwritten _ _ | diskFull => .save
  | repeatedName _ | existingFiles _ => .outputConflict
  | file e => kindOfFile e
  | deviceLost => .device
  | negativePageCount _ | unknownOrientation _ | unknownRepagination _ | unsupportedVersion _
  | noSource | noOutput | withheldVersion | withheldRepagination | sourceClosed => .value
  | withheldOutput => .type
  | catalogueMissing => .reading
  | unknownPermission _ => .key
  | move .unusable => .overflow
  | move _ | noPageAtPosition _ _ | noSourcePage | noDraftPage | unusableIndex => .index
  | progressComplete _ | notifierFailed => .runtime

/-- Does a failure belong to splitting itself? -/
def isSplitting (f : Failure) : Bool := f.kind.isSplitting

/-- The wording of a source that cannot be opened. -/
def openMessage (source : String) : OpenFault → String
  | .file e => s!"Unable to open {source}: {e.message}"
  | .unreadable => s!"Unable to open {source}: <unreadable>"
  | .wrongPassword => s!"Unable to decrypt {source}, wrong password"
  | .broken => s!"Unable to open {source}: broken"

/-- The wording of a failure. -/
def message : Failure → String
  | sourceOpen source fault => openMessage source fault
  | permissionDenied source permission =>
    s!"{source} does not grant the {permission.text} permission"
  | degenerateBox box =>
    "Box " ++ Text.coordinates box.toList ++ " has a non-positive size (" ++
      Decimal.text box.width ++ " x " ++ Decimal.text box.height ++ ")"
  | draftUnsaved draft path e => s!"Unable to save {draft} to {path}: {e.message}"
  | outputUnwritten target e => s!"Unable to write {target}: {e.message}"
  | diskFull => "disk full"
  | repeatedName name => s!"More than one output is named {name}"
  | existingFiles targets =>
    "Refusing to overwrite existing file(s): " ++ ", ".intercalate targets
  | file e => e.message
  | deviceLost => "device lost"
  | negativePageCount count => s!"Page count cannot be negative: {count}"
  | unknownOrientation word => Text.quoted word ++ " is not a valid Orientation"
  | unknownRepagination word => Text.quoted word ++ " is not a valid Repagination"
  | unknownPermission word => Text.quoted word
  | unsupportedVersion version => s!"Unsupported PDF version: {version}"
  | noSource => "At least one source is required"
  | noOutput => "An output is required"
  | withheldOutput => "expected str, bytes or os.PathLike object, not list"
  | withheldVersion => "Unsupported PDF version: []"
  | withheldRepagination => "[] is not a valid Repagination"
  | move .noPages => "pop from empty list"
  | move .outOfRange => "pop index out of range"
  | move .unusable => "Python int too large to convert to C ssize_t"
  | noPageAtPosition position count =>
    s!"No page at position {position}, document has {count} pages"
  | noSourcePage => "Sequence index out of range"
  | noDraftPage => "list index out of range"
  | unusableIndex => "cannot fit 'int' into an index-sized integer"
  | sourceClosed => "I/O operation on closed file."
  | catalogueMissing => "Cannot find Root object in pdf"
  | progressComplete total => s!"Progress already complete ({total} steps)"
  | notifierFailed => "notifier failed"

end Failure

end Folio
