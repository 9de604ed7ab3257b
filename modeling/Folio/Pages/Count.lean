import Folio.Failure

/-!
# Page counts

Moves and orders for a page count that comes from outside and may turn out to be negative.
-/

namespace Folio.Pages

/-- A page count; a negative one is refused. -/
def count (n : Int) : Except Failure Nat :=
  if n < 0 then .error (.negativePageCount n) else .ok n.toNat

/-- The moves for a page count. -/
def movesFor (n : Int) : Except Failure (List Nat) := (count n).map lastFirstMoves

/-- The order for a page count. -/
def orderFor (n : Int) : Except Failure (List Nat) := (count n).map lastFirstOrder

end Folio.Pages
