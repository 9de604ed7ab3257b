import Folio.FileTree.Operations
import Folio.Log.Record

/-!
# Input files

An input is a document file or a directory. A directory stands for the document files directly in
it, ordered by the code points of their names, in whatever order the file system lists them.
-/

namespace Folio.Cli

/-- Does a file name have the suffix of documents, in some letter case? -/
def hasDocumentSuffix (name : String) : Bool :=
  FileName.lower (FileName.suffix name.toList) == FileName.documentSuffix

/-- Is a path one of a document file? -/
def isDocument (t : FileTree) (p : Path) : Except FileError Bool :=
  (t.isFileAt p).map (· && hasDocumentSuffix p.name)

/-- The paths of the document files in a directory, ordered by their names. -/
def documentsIn (t : FileTree) (p : Path) (dir : Location) : Except FileError (List Path) := do
  let names ← (t.children dir).filterM fun name =>
    isDocument t { p with parts := p.parts ++ [name] }
  return (names.mergeSort fun a b => decide (a ≤ b)).map fun name =>
    { p with parts := p.parts ++ [name] }

/-- What an input stands for. -/
inductive Input where
  | documents (paths : List Path)
  /-- The input is neither a document nor a directory. -/
  | neither

/-- Finds out what an input stands for. -/
def lookUp (t : FileTree) (p : Path) : Except FileError Input := do
  if ← t.isDirectoryAt p then
    return .documents (← documentsIn t p ((t.locate p).toOption.getD []))
  else if ← isDocument t p then return .documents [p]
  else return .neither

/-- The warning about an input that is neither a document nor a directory. -/
def neitherWarning (text : String) : Log.Record :=
  ⟨Log.packageLogger, .warning,
    s!"'{text}' is neither a PDF file nor a directory containing PDFs."⟩

/-- The documents that a list of inputs stands for, one input after the other, and the warnings on
the way. -/
def gather (t : FileTree) : List String → List Log.Record × Except FileError (List Path)
  | [] => ([], .ok [])
  | text :: rest =>
    match lookUp t (.ofText text) with
    | .error e => ([], .error e)
    | .ok input =>
      let (warnings, found) := gather t rest
      match input with
      | .documents paths => (warnings, found.map (paths ++ ·))
      | .neither => (neitherWarning text :: warnings, found)

end Folio.Cli
