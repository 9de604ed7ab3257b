import Folio.Cli.Program
import Folio.Naming.Calendar

/-!
# The command line program

Takes a picture of the current directory, calls the program on it, and carries out what it did to
directories and text files. What is inside a document file is not looked at here, so documents
appear in the picture as files that cannot be read.
-/

namespace Folio.CommandLine

/-- The text of a file, empty if it is not text. -/
def textOf (e : IO.FS.DirEntry) : IO String := do
  try IO.FS.readFile e.path catch _ => return ""

/-- The entries at and below a directory entry. -/
partial def picture (above : Location) (e : IO.FS.DirEntry) : IO (List (Location × Entry)) := do
  let here := above ++ [e.fileName]
  if ← e.path.isDir then
    let below ← (← e.path.readDir).toList.mapM (picture here)
    return (here, .directory) :: below.flatten
  else return [(here, .file (.text (← textOf e)))]

/-- The tree of the current directory. -/
def currentTree : IO FileTree := do
  let cwd ← IO.currentDir
  let start := FileTree.start (Path.ofText cwd.toString).parts
  let entries ← (← cwd.readDir).toList.mapM (picture start.cwd)
  return { start with entries := start.entries ++ entries.flatten }

/-- The tree that a call needs to see: none, unless there is work to do. -/
def treeFor (arguments : List String) : IO FileTree :=
  match Cli.Request.ofArguments arguments with
  | .ok (.arguments _) => currentTree
  | _ => return .start []

/-- The current time, taken from a file that is made for it. -/
def currentTime : IO Instant := do
  let (_, path) ← IO.FS.createTempFile
  let time := (← path.metadata).modified
  IO.FS.removeFile path
  return .ofEpoch time.sec.toNat (time.nsec.toNat / 1000)

/-- Makes one entry real, unless it was there before. -/
def carryOut (before : FileTree) (l : Location) (e : Entry) : IO Unit := do
  let path := (Path.mk .root l).text
  match e, before.get? l with
  | .directory, none => IO.FS.createDirAll path
  | .file (.text s), some (.file (.text old)) => if s ≠ old then IO.FS.writeFile path s
  | .file (.text s), none => IO.FS.writeFile path s
  | _, _ => return ()

end Folio.CommandLine

open Folio in
/-- One call of the program. -/
def main (arguments : List String) : IO UInt32 := do
  let before ← CommandLine.treeFor arguments
  let result := Cli.call before 0 (← CommandLine.currentTime) arguments
  for (l, e) in result.tree.entries do CommandLine.carryOut before l e
  IO.print result.stdout
  IO.eprint result.stderr
  match result.ending with
  | .status code | .refused code => return code.toUInt32
  | .failed f =>
    IO.eprintln f.message
    return 1
