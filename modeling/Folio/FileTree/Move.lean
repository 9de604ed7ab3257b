import Folio.FileTree.Operations

/-!
# Moving files

`rename` is the file system's own operation. `move` is what a user means by moving: a target that
is a directory takes the source in under its own name, and where renaming is refused the source
is copied and removed.
-/

namespace Folio.FileTree

/-- Gives an entry another name. A file replaces a file; a directory replaces an empty one, and
is never put below itself. -/
def rename (t : FileTree) (source target : Path) : Except Fault FileTree :=
  match t.spot source, t.spot target with
  | .error f, _ => .error f
  | _, .error f => .error f
  | .ok (.named d n), .ok (.named d' n') =>
    let a := d ++ [n]
    let b := d' ++ [n']
    match t.get? a, t.get? b with
    | none, _ => .error .noEntry
    | some e, old =>
      if a = b then .ok t
      else if a.isPrefixOf b then .error .invalid
      else if b.isPrefixOf a then .error .notEmpty
      else
        match e, old with
        | _, none => .ok (t.relocate a b)
        | .file _, some (.file _) => .ok ((t.erase b).relocate a b)
        | .directory, some (.file _) => .error .notDirectory
        | .file _, some .directory => .error .isDirectory
        | .directory, some .directory =>
          if t.children b = [] then .ok ((t.erase b).relocate a b) else .error .notEmpty
  | _, _ => .error .busy

/-- Makes a directory that must not exist yet, given by its components from the last one to the
first, and the parents that are missing. -/
def makeFresh (t : FileTree) (anchor : Anchor) : List String → Except FileError Unit × FileTree
  | [] => (.error (.system .alreadyExists (Path.text ⟨anchor, []⟩)), t)
  | part :: up =>
    let (outcome, next) :=
      if up = [] ∨ (t.locate ⟨anchor, up.reverse⟩).isOk then (.ok (), t) else t.makeFresh anchor up
    match outcome with
    | .error (.system .alreadyExists _) | .ok () =>
      match next.makeDirectory ⟨anchor, (part :: up).reverse⟩ with
      | .ok made => (.ok (), made)
      | .error e => (.error e, next)
    | .error e => (.error e, next)

/-- Removes a directory that has been emptied. One that the path names by no component of its own
cannot be removed. -/
def removeEmptied (t : FileTree) (p : Path) : Except FileError FileTree :=
  match t.spot p with
  | .error f => .error (.system f p.text)
  | .ok (.fixed _) => .error (.system (if p.parts = [] then .invalid else .notEmpty) p.text)
  | .ok (.named dir name) => .ok (t.erase (dir ++ [name]))

/-- Moves a directory by making a new one, taking everything over, and removing the old one. -/
def carryDirectory (t : FileTree) (source target : Path) : Except FileError Unit × FileTree :=
  match t.makeFresh target.anchor target.parts.reverse with
  | (.error e, next) => (.error e, next)
  | (.ok (), next) =>
    match next.locate source, next.locate target with
    | .ok a, .ok b =>
      let emptied := ((next.erase a).relocate a b).put a .directory
      match emptied.removeEmptied source with
      | .ok next => (.ok (), next)
      | .error e => (.error e, emptied)
    | _, _ => (.ok (), next)

/-- Moves a file by writing it anew and removing the old one. `shown` is the target as error
messages give it. -/
def carryFile (t : FileTree) (source target : Path) (shown : String) :
    Except FileError Unit × FileTree :=
  match t.read source with
  | .error e => (.error e, t)
  | .ok content =>
    match t.fileSpot target with
    | .error f => (.error (.system f shown), t)
    | .ok l =>
      match (t.put l (.file content)).unlink source with
      | .ok next => (.ok (), next)
      | .error e => (.error e, t.put l (.file content))

/-- Renames `source` to `target`, or carries it over where that is refused. `goal` is the target
that was asked for. -/
def transfer (t : FileTree) (source goal target : Path) (shown : String) :
    Except FileError Unit × FileTree :=
  match t.rename source target with
  | .ok next => (.ok (), next)
  | .error _ =>
    match (t.locate source).map t.isDirectory with
    | .ok true =>
      if (t.lexical source).isPrefixOf (t.lexical goal) then
        (.error (.intoItself source.text goal.text), t)
      else t.carryDirectory source target
    | _ => t.carryFile source target shown

/-- The path as text, with another component below it. -/
def textBelow (p : Path) (part : String) : String :=
  if p.text.endsWith "/" then p.text ++ part else p.text ++ "/" ++ part

/-- What a source is called inside the directory that it is moved into. -/
def ownName (source : Path) : String :=
  match source.anchor, source.parts with
  | .relative, [] => "."
  | _, _ => source.name

/-- Moves `source` to `target`, or into it if it is a directory. -/
def move (t : FileTree) (source target : Path) : Except FileError Unit × FileTree :=
  if source.hasNul ∨ target.hasNul then (.error .embeddedNul, t)
  else
    match (t.locate target).map fun l => (l, t.isDirectory l) with
    | .ok (l, true) =>
      if (t.locate source).toOption = some l then
        match t.rename source target with
        | .ok next => (.ok (), next)
        | .error f => (.error (.systemPair f source.text target.text), t)
      else
        let inside : Path := { target with parts := target.parts ++ [source.name] }
        let shown := textBelow target (ownName source)
        if source.parts = [] ∨ (t.locate inside).isOk then (.error (.destinationExists shown), t)
        else t.transfer source target inside shown
    | _ => t.transfer source target target target.text

end Folio.FileTree
