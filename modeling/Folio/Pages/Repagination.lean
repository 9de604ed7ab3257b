import Folio.Pages.Moves

/-!
# Repagination modes

How the pages of a split document are put into another order.
-/

namespace Folio

/-- A repagination mode. -/
inductive Repagination where
  | none
  | lastFirst
  deriving DecidableEq, Repr

namespace Repagination

/-- All modes. -/
def all : List Repagination := [none, lastFirst]

/-- The word for a mode. -/
def text : Repagination → String
  | none => "none"
  | lastFirst => "last-first"

/-- Reads the word for a mode. -/
def ofText? (s : String) : Option Repagination := all.find? fun m => m.text = s

end Repagination

end Folio
