import Folio.Failure

/-!
# Progress

How many steps of a batch are done. A batch that is complete cannot advance.
-/

namespace Folio

/-- Steps that are done, out of a total. -/
structure Progress where
  total : Int
  current : Int
  deriving DecidableEq, Repr

namespace Progress

/-- One more step is done. -/
def advance (p : Progress) : Except Failure Progress :=
  if p.total ≤ p.current then .error (.progressComplete p.total)
  else .ok { p with current := p.current + 1 }

end Progress

end Folio
