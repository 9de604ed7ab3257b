/-!
# The shortest decimal that reads back

A positive binary floating-point number stands for `significand * 2 ^ exponent`, and every real
number of an interval around that value is rounded to it when it is read. `Magnitude.shortest`
looks for the decimal with the fewest digits inside that interval: it tries grids of one, two, …
seventeen digits, and on each grid only the two neighbours of the value. Everything is computed
on natural numbers.
-/

namespace Folio.Decimal

/-- A positive number `significand * 2 ^ exponent`. -/
structure Magnitude where
  significand : Nat
  exponent : Int

/-- The decimal number `coefficient * 10 ^ exponent`. -/
structure Digits where
  coefficient : Nat
  exponent : Int
  deriving DecidableEq, Repr

/-- The number of decimal digits of `n`. -/
def digitCount (n : Nat) : Nat := (Nat.toDigits 10 n).length

/-- The weight of the leading bit of a significand, which a double does not store. -/
def hiddenBit : Nat := 4503599627370496

namespace Magnitude

/-- Reads the fields of an IEEE double; the sign is left out. An all-zero exponent field has no
hidden bit. -/
def ofBits (bits : UInt64) : Magnitude :=
  let fraction := bits.toNat % hiddenBit
  let field := bits.toNat / hiddenBit % 2048
  if field = 0 then ⟨fraction, -1074⟩ else ⟨hiddenBit + fraction, Int.ofNat field - 1075⟩

/-- The spacing of doubles halves below a power of two, except at the bottom of the range. -/
def narrowBelow (v : Magnitude) : Bool := v.significand == hiddenBit && decide (-1074 < v.exponent)

/-- The value as a fraction, in units of a quarter of its last place. -/
def quarters (v : Magnitude) : Nat × Nat :=
  (4 * v.significand * Nat.pow 2 (v.exponent - 2).toNat, Nat.pow 2 (2 - v.exponent).toNat)

/-- The decimal exponent of the leading digit. -/
def leading (v : Magnitude) : Int :=
  let (num, den) := v.quarters
  if den ≤ num then (digitCount (num / den) : Int) - 1 else -(digitCount ((den - 1) / num) : Int)

/-- The largest point of the grid `10 ^ k` that is at most the value. -/
def floorOn (v : Magnitude) (k : Int) : Nat :=
  let (num, den) := v.quarters
  num * Nat.pow 10 (-k).toNat / (den * Nat.pow 10 k.toNat)

/-- The grid point `c * 10 ^ k` and the value, over one common denominator. -/
def scaled (v : Magnitude) (c : Nat) (k : Int) : Nat × Nat :=
  let (num, den) := v.quarters
  (c * den * Nat.pow 10 k.toNat, num * Nat.pow 10 (-k).toNat)

/-- Does `c * 10 ^ k` read back as the value? The ends of the interval do so only for an even
significand, because reading rounds a tie to the even neighbour. -/
def readsBack (v : Magnitude) (c : Nat) (k : Int) : Bool :=
  let (point, value) := v.scaled c k
  let quarter := value / (4 * v.significand)
  let low := value - (if v.narrowBelow then quarter else 2 * quarter)
  let high := value + 2 * quarter
  if v.significand % 2 = 0 then decide (low ≤ point ∧ point ≤ high)
  else decide (low < point ∧ point < high)

/-- Of the two neighbours `c` and `c + 1` on the grid `10 ^ k`, the nearer one; a tie goes to the
even one. -/
def nearer (v : Magnitude) (c : Nat) (k : Int) : Nat :=
  let (below, value) := v.scaled c k
  let (above, _) := v.scaled (c + 1) k
  if value - below < above - value then c
  else if above - value < value - below then c + 1
  else if c % 2 = 0 then c else c + 1

/-- The neighbour of the value on the grid `10 ^ k` that reads back, the nearer one if both do. -/
def onGrid (v : Magnitude) (k : Int) : Option Digits :=
  let c := v.floorOn k
  match v.readsBack c k && 0 < c, v.readsBack (c + 1) k with
  | true, true => some ⟨v.nearer c k, k⟩
  | true, false => some ⟨c, k⟩
  | false, true => some ⟨c + 1, k⟩
  | false, false => none

/-- The decimal with the fewest digits that reads back as the value; among those the nearest. -/
def shortest (v : Magnitude) : Digits :=
  ((List.range 17).findSome? fun n => v.onGrid (v.leading - Int.ofNat n)).getD
    ⟨v.nearer (v.floorOn (v.leading - 16)) (v.leading - 16), v.leading - 16⟩

end Magnitude

end Folio.Decimal
