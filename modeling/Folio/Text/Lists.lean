import Folio.Decimal.Numeral

/-!
# Lists in messages

Coordinates and positions are written between brackets, with a comma and a blank between them.
-/

namespace Folio.Text

/-- Texts between brackets. -/
def bracketed (items : List String) : String := "[" ++ ", ".intercalate items ++ "]"

/-- A list of coordinates. -/
def coordinates (xs : List Float) : String := bracketed (xs.map Decimal.text)

/-- A list of positions. -/
def positions (ps : List Nat) : String := bracketed (ps.map toString)

end Folio.Text
