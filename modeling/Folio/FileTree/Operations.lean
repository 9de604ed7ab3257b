import Folio.FileTree.Resolve

/-!
# Operations on files and directories

Each operation names its target by a path and either changes the tree or reports an error. One
that can stop halfway returns the tree as it is then, next to its outcome.
-/

namespace Folio.FileTree

/-- Refuses a path that the file system cannot be asked about, and reports a fault with the text
of the path. -/
def ask {α : Type} (p : Path) (x : Except Fault α) : Except FileError α :=
  if p.hasNul then .error .embeddedNul else x.mapError (.system · p.text)

/-- The content of a file. -/
def contentAt (t : FileTree) (l : Location) : Except Fault Content :=
  match t.get? l with
  | some (.file c) => .ok c
  | some .directory => .error .isDirectory
  | none => .error .noEntry

/-- The content of the file at a path. -/
def read (t : FileTree) (p : Path) : Except FileError Content :=
  ask p (t.locate p >>= t.contentAt)

/-- The location at which a file can be written. -/
def fileSpot (t : FileTree) (p : Path) : Except Fault Location :=
  match t.spot p with
  | .error f => .error f
  | .ok (.fixed _) => .error .isDirectory
  | .ok (.named dir name) =>
    if t.isDirectory (dir ++ [name]) then .error .isDirectory else .ok (dir ++ [name])

/-- Writes a file, over an older one if there is one. -/
def write (t : FileTree) (p : Path) (c : Content) : Except FileError FileTree :=
  (ask p (t.fileSpot p)).map fun l => t.put l (.file c)

/-- The fault `f`, if a path leads to a directory. -/
def faultIn {α : Type} (t : FileTree) (p : Path) (f : Fault) : Except Fault α :=
  match t.locate p with
  | .error g => .error g
  | .ok l => .error (if t.isDirectory l then f else .notDirectory)

/-- The location for a file that must not exist yet. The text is taken as it stands: one that ends
in a slash names no file, and one that ends in dots names a directory that is there. -/
def freshSpot (t : FileTree) (text : String) : Except Fault Location :=
  let p := Path.ofText text
  if isOverlong text then .error .nameTooLong
  else if Path.endsInDots text then t.faultIn p .alreadyExists
  else if Path.endsInSlash text then t.faultIn p.parent .isDirectory
  else
    match t.spot p with
    | .error f => .error f
    | .ok (.fixed _) => .error .alreadyExists
    | .ok (.named dir name) =>
      if t.has (dir ++ [name]) then .error .alreadyExists else .ok (dir ++ [name])

/-- Makes an empty file that must not exist yet. -/
def createFresh (t : FileTree) (text : String) : Except FileError FileTree :=
  if (Path.ofText text).hasNul then .error .embeddedNul
  else
    match t.freshSpot text with
    | .ok l => .ok (t.put l (.file (.text "")))
    | .error f => .error (.system f text)

/-- Makes sure that there is a file that text can be added to, and says where it is. The file is
asked for by its absolute path. -/
def openLog (t : FileTree) (p : Path) : Except FileError (Location × FileTree) :=
  let spot :=
    if isOverlong (Path.text ⟨.root, t.lexical p⟩) then .error .nameTooLong else t.fileSpot p
  (ask p spot).map fun l => (l, if t.has l then t else t.put l (.file (.text "")))

/-- Adds text to the text file at a location. -/
def append (t : FileTree) (l : Location) (s : String) : FileTree :=
  match t.get? l with
  | some (.file (.text old)) => t.put l (.file (.text (old ++ s)))
  | _ => t

/-- Removes a file. -/
def unlink (t : FileTree) (p : Path) : Except FileError FileTree :=
  ask p <|
    match t.spot p with
    | .error f => .error f
    | .ok (.fixed _) => .error .isDirectory
    | .ok (.named dir name) =>
      match t.get? (dir ++ [name]) with
      | none => .error .noEntry
      | some .directory => .error .isDirectory
      | some (.file _) => .ok (t.erase (dir ++ [name]))

/-- Makes one directory. -/
def makeDirectory (t : FileTree) (p : Path) : Except FileError FileTree :=
  ask p <|
    match t.spot p with
    | .error f => .error f
    | .ok (.fixed _) => .error .alreadyExists
    | .ok (.named dir name) =>
      if t.has (dir ++ [name]) then .error .alreadyExists
      else .ok (t.put (dir ++ [name]) .directory)

/-- The outcome of making a directory, where one that exists already is as good as a new one. -/
def orExisting (t : FileTree) (p : Path) (r : Except FileError FileTree) :
    Except FileError Unit × FileTree :=
  match r with
  | .ok next => (.ok (), next)
  | .error .embeddedNul => (.error .embeddedNul, t)
  | .error e =>
    match t.isDirectoryAt p with
    | .ok true => (.ok (), t)
    | .ok false => (.error e, t)
    | .error e => (.error e, t)

/-- How many directories are made at most for one. -/
def depthLimit : Nat := 980

/-- Makes a directory given by its components from the last one to the first; up to `limit` parents
that are missing are made before it. -/
def makeChain (t : FileTree) (anchor : Anchor) :
    Nat → List String → Except FileError Unit × FileTree
  | 0, _ => (.error .tooDeep, t)
  | _, [] => t.orExisting ⟨anchor, []⟩ (t.makeDirectory ⟨anchor, []⟩)
  | limit + 1, part :: up =>
    let p : Path := ⟨anchor, (part :: up).reverse⟩
    match t.makeDirectory p with
    | .error (.system .noEntry _) =>
      match t.makeChain anchor limit up with
      | (.error e, next) => (.error e, next)
      | (.ok (), next) =>
        match next.makeDirectory p with
        | .error (.system .noEntry text) => (.error (.system .noEntry text), next)
        | r => next.orExisting p r
    | r => t.orExisting p r

/-- Makes a directory and the parents that are missing. A directory that exists is left alone. -/
def makeDirectories (t : FileTree) (p : Path) : Except FileError Unit × FileTree :=
  t.makeChain p.anchor depthLimit p.parts.reverse

/-- Removes the entry at a path, with all that lies below it. -/
def remove (t : FileTree) (p : Path) : Except FileError FileTree :=
  ask p (t.locate p >>= fun l => .ok (t.eraseBelow l))

end Folio.FileTree
