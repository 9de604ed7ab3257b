import Folio.Document.Rehearsal
import Folio.FileTree.Lemmas
import Folio.Geometry.Tiling
import Folio.Main
import Folio.Pages.Count
import Folio.Proofs.Geometry.Bisection
import Folio.Proofs.Geometry.Subdivision
import Folio.Proofs.Geometry.Halving
import Folio.Proofs.Geometry.Parting
import Folio.Proofs.Pages.Booklet
import Folio.Proofs.Document.PageView
import Folio.Proofs.Document.ReadingOrder
import Folio.Proofs.FileTree.Following
import Folio.Proofs.FileTree.Moving
import Folio.Proofs.FileTree.Adding
import Folio.Proofs.FileTree.Making
import Folio.Proofs.Output.Buffers
import Folio.Proofs.Output.Sweeping
import Folio.Proofs.Batch.Ledger
import Folio.Proofs.Batch.Processing
import Folio.Proofs.Batch.Steps
import Folio.Proofs.Batch.Loop
import Folio.Proofs.FileTree.Carrying
import Folio.Proofs.FileTree.Refilling
import Folio.Proofs.Output.Committing
import Folio.Proofs.Batch.Course
import Folio.Proofs.Batch.Rollback
import Folio.Proofs.Batch.Interruption
import Folio.Proofs.Document.SavedForm
import Folio.Proofs.Document.Descriptions
import Folio.Proofs.Document.SplitForm
import Folio.Proofs.Document.Resplitting
import Folio.Proofs.Document.Splitting
import Folio.Proofs.Document.Replaying
import Folio.Proofs.Document.Positions
import Folio.Proofs.Path
import Folio.Proofs.Naming.Characters
import Folio.Proofs.Naming.Decomposition
import Folio.Proofs.FileTree.Refusals
import Folio.Proofs.Output.Landing
import Folio.Proofs.Batch.Entries
import Folio.Proofs.Batch.Delivery
import Folio.Proofs.Output.Sparing
import Folio.Proofs.Output.Lossless
import Folio.Proofs.Output.Requests
import Folio.Proofs.Batch.Denial
import Folio.Proofs.Batch.Holding
import Folio.Proofs.Log.Unread
import Folio.Proofs.Batch.Closing
import Folio.Proofs.Output.Escaping
import Folio.Proofs.Output.Conflicts
import Folio.Proofs.Batch.Failing
import Folio.Proofs.Batch.Feasibility
import Folio.Proofs.Batch.Reordering
import Folio.Proofs.Batch.Reruns
import Folio.Proofs.Cli.Ending
import Folio.Proofs.Permission
import Folio.Proofs.Naming.Numbering
import Folio.Proofs.Naming.Chronology
import Folio.Proofs.Batch.Numbering
import Folio.Proofs.Naming.Documents
import Folio.Proofs.Cli.Targets
import Folio.Proofs.FileTree.Places
import Folio.Proofs.FileTree.Rearranging
import Folio.Proofs.Output.Rearranging
import Folio.Proofs.Batch.Rearranging
import Folio.Proofs.Log.Rearranging
import Folio.Proofs.Cli.Listing
import Folio.Proofs.Cli.Rearranging
