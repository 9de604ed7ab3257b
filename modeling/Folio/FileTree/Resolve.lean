import Folio.FileTree.Basic
import Folio.FileTree.Fault

/-!
# From paths to locations

A path is followed one component at a time from where it starts. Each step needs a directory to
stand in and, except for `..`, an entry of the right name. The last component may be missing from
the tree; `Spot` says where it would be.
-/

namespace Folio

/-- Where a path leads. -/
inductive Spot where
  /-- A directory that is named by no component of its own. -/
  | fixed (directory : Location)
  /-- A name in a directory, with or without an entry. -/
  | named (directory : Location) (name : String)
  deriving DecidableEq, Repr

namespace FileTree

/-- The greatest length of a name in UTF-8 bytes. -/
def nameLimit : Nat := 255

/-- The greatest length of the text of a path in UTF-8 bytes. -/
def pathLimit : Nat := 4095

/-- Is the text of a path too long for the file system? -/
def isOverlong (text : String) : Bool := decide (pathLimit < text.utf8ByteSize)

/-- Where a path starts. -/
def origin (t : FileTree) (p : Path) : Location :=
  match p.anchor with
  | .relative => t.cwd
  | _ => []

/-- Where a path points when `..` is taken to undo the component before it. -/
def lexical (t : FileTree) (p : Path) : Location :=
  p.parts.foldl (fun l part => if part = ".." then l.dropLast else l ++ [part]) (t.origin p)

/-- The path of a location: relative if it lies below the directory that relative paths start
from. -/
def pathTo (t : FileTree) (l : Location) : Path :=
  if t.cwd.isPrefixOf l then ⟨.relative, l.drop t.cwd.length⟩ else ⟨.root, l⟩

/-- One component of a path, seen from a location. -/
def spotIn (t : FileTree) (dir : Location) (part : String) : Except Fault Spot :=
  if t.isDirectory dir = false then .error .notDirectory
  else if part = ".." then .ok (.fixed dir.dropLast)
  else if nameLimit < part.utf8ByteSize then .error .nameTooLong
  else .ok (.named dir part)

/-- The location of a spot, if there is an entry. -/
def settle (t : FileTree) : Spot → Except Fault Location
  | .fixed dir => .ok dir
  | .named dir name => if t.has (dir ++ [name]) then .ok (dir ++ [name]) else .error .noEntry

/-- Follows components that all have entries. -/
def walk (t : FileTree) (dir : Location) : List String → Except Fault Location
  | [] => .ok dir
  | part :: parts =>
    match t.spotIn dir part with
    | .error f => .error f
    | .ok spot =>
      match t.settle spot with
      | .error f => .error f
      | .ok next => t.walk next parts

/-- Where a path leads; all but its last component must have entries. -/
def spot (t : FileTree) (p : Path) : Except Fault Spot :=
  if isOverlong p.text then .error .nameTooLong
  else
    match p.parts.getLast? with
    | none => .ok (.fixed (t.origin p))
    | some name =>
      match t.walk (t.origin p) p.parts.dropLast with
      | .error f => .error f
      | .ok dir => t.spotIn dir name

/-- The location of a path that leads to an entry. -/
def locate (t : FileTree) (p : Path) : Except Fault Location :=
  match t.spot p with
  | .error f => .error f
  | .ok spot => t.settle spot

/-- What a path leads to, if anything. A path that cannot be followed leads to nothing, but a name
or a path that is too long is an error. -/
def probe (t : FileTree) (p : Path) : Except FileError (Option Entry) :=
  if p.hasNul then .ok none
  else
    match t.locate p with
    | .ok l => .ok (t.get? l)
    | .error .noEntry => .ok none
    | .error .notDirectory => .ok none
    | .error f => .error (.system f p.text)

/-- Does a path lead to an entry? -/
def pathExists (t : FileTree) (p : Path) : Except FileError Bool := (t.probe p).map Option.isSome

/-- Does a path lead to a directory? -/
def isDirectoryAt (t : FileTree) (p : Path) : Except FileError Bool :=
  (t.probe p).map fun e => match e with | some .directory => true | _ => false

/-- Does a path lead to a file? -/
def isFileAt (t : FileTree) (p : Path) : Except FileError Bool :=
  (t.probe p).map fun e => match e with | some (.file _) => true | _ => false

end FileTree

end Folio
