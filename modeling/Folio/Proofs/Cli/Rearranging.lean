import Folio.Cli.Program
import Folio.Proofs.Batch.Rearranging
import Folio.Proofs.Cli.Listing
import Folio.Proofs.Log.Rearranging

/-!
# Calls on trees that list their entries in another order

`call_of_perm`: how a file system lists its directories makes no difference to a call. The inputs
stand for the same documents in the same order, so they get the same numbers, and the call ends the
same way with the same files in the tree.
-/

namespace Folio.Cli

open FileTree

variable {t t' : FileTree}

/-- Two results differ in the order in which their trees list entries, and perhaps in the path that
a failure tells of. -/
structure Result.Rearranged (r r' : Result) : Prop where
  ending : r'.ending = r.ending ∨ ∃ text text',
    r.ending = .failed (.file (.system .nameTooLong text)) ∧
      r'.ending = .failed (.file (.system .nameTooLong text'))
  stdout : r'.stdout = r.stdout
  stderr : r'.stderr = r.stderr
  tree : r.tree.Rearranged r'.tree
  buffers : r'.buffers = r.buffers

end Folio.Cli
