import Folio.Pdf.File

/-!
# File trees

A file tree is a finite list of entries, each at an absolute location. The root is always a
directory. Entries keep the order in which they were made, which is also the order in which a
directory is enumerated; nothing else depends on that order.
-/

namespace Folio

/-- An absolute location: the names on the way down from the root. -/
abbrev Location := List String

/-- What a file holds. -/
inductive Content where
  | text (s : String)
  | document (file : Pdf.File)

/-- What is found at a location. -/
inductive Entry where
  | directory
  | file (content : Content)

/-- The entries below the root, and the location that relative paths start from. -/
structure FileTree where
  cwd : Location
  entries : List (Location × Entry)

namespace FileTree

/-- The entry at a location. -/
def get? (t : FileTree) (l : Location) : Option Entry :=
  if l = [] then some .directory else t.entries.lookup l

/-- Is there an entry at a location? -/
def has (t : FileTree) (l : Location) : Bool := (t.get? l).isSome

/-- Is there a directory at a location? -/
def isDirectory (t : FileTree) (l : Location) : Bool :=
  match t.get? l with
  | some .directory => true
  | _ => false

/-- The names in the directory at a location, in the order of enumeration. -/
def children (t : FileTree) (l : Location) : List String :=
  t.entries.filterMap fun (k, _) => if k.dropLast = l then k.getLast? else none

/-- The tree with the entry at a location removed. -/
def erase (t : FileTree) (l : Location) : FileTree :=
  { t with entries := t.entries.filter fun (k, _) => k ≠ l }

/-- The tree without a location and all that lies below it. -/
def eraseBelow (t : FileTree) (l : Location) : FileTree :=
  { t with entries := t.entries.filter fun (k, _) => !l.isPrefixOf k }

/-- The tree with an entry put at a location, in place of the one that was there. -/
def put (t : FileTree) (l : Location) (e : Entry) : FileTree :=
  if (t.entries.lookup l).isSome then
    { t with entries := t.entries.map fun (k, old) => if k = l then (k, e) else (k, old) }
  else { t with entries := t.entries ++ [(l, e)] }

/-- A location seen from `source` is moved to `target`; others stay. -/
def redirect (source target l : Location) : Location :=
  if source.isPrefixOf l then target ++ l.drop source.length else l

/-- The tree with a location, and all that lies below it, found at another location. -/
def relocate (t : FileTree) (source target : Location) : FileTree :=
  { t with entries := t.entries.map fun (k, e) => (redirect source target k, e) }

/-- A tree that holds nothing but the directory that relative paths start from. -/
def start (cwd : Location) : FileTree :=
  ⟨cwd, (List.range cwd.length).map fun i => (cwd.take (i + 1), .directory)⟩

/-- The entries below the directory that relative paths start from, with the names on the way
down to them. -/
def listing (t : FileTree) : List (List String × Entry) :=
  t.entries.filterMap fun (k, e) =>
    if t.cwd.isPrefixOf k ∧ k ≠ t.cwd then some (k.drop t.cwd.length, e) else none

end FileTree

end Folio
