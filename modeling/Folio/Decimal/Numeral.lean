import Folio.Decimal.Shortest

/-!
# Numerals

How a double is written: the shortest digits that read back, laid out positionally or with an
exponent. `Style` holds the decisions of the layout and `Style.coordinate` the ones of page
coordinates.
-/

namespace Folio.Decimal

/-- Decisions on the layout of a numeral. -/
structure Style where
  /-- Numbers whose leading digit has a smaller exponent are written with an exponent. -/
  leastPositional : Int
  /-- So are numbers whose leading digit has at least this exponent. -/
  positionalBound : Int
  /-- The least number of digits of a written exponent. -/
  exponentWidth : Nat
  /-- Is an integral positional number written with `.0`? -/
  keepPoint : Bool

/-- Coordinates are positional from `0.0001` to below `10 ^ 16`, always show a point when
positional, and have a signed exponent of at least two digits otherwise. -/
def Style.coordinate : Style := ⟨-4, 16, 2, true⟩

/-- The digits of a coefficient without the zeros at its end. -/
def Digits.significant (d : Digits) : List Char :=
  match ((Nat.toDigits 10 d.coefficient).reverse.dropWhile (· == '0')).reverse with
  | [] => ['0']
  | ds => ds

/-- The exponent of the first digit. -/
def Digits.leading (d : Digits) : Int := d.exponent + (digitCount d.coefficient : Int) - 1

namespace Style

/-- The part after the point, with the point. -/
def fraction (style : Style) : List Char → List Char
  | [] => if style.keepPoint then ['.', '0'] else []
  | ds => '.' :: ds

/-- A signed exponent. -/
def exponent (style : Style) (e : Int) : List Char :=
  let ds := Nat.toDigits 10 e.natAbs
  let zeros := List.replicate (style.exponentWidth - ds.length) '0'
  'e' :: (if e < 0 then '-' else '+') :: (zeros ++ ds)

/-- A positive decimal. -/
def positive (style : Style) (d : Digits) : List Char :=
  let ds := d.significant
  let e := d.leading
  if style.leastPositional ≤ e ∧ e < style.positionalBound then
    if e < 0 then '0' :: '.' :: (List.replicate (-e - 1).toNat '0' ++ ds)
    else
      let places := e.toNat + 1
      let zeros := List.replicate (places - ds.length) '0'
      ds.take places ++ zeros ++ style.fraction (ds.drop places)
  else
    ds.take 1 ++ (match ds.drop 1 with | [] => [] | rest => '.' :: rest) ++ style.exponent e

/-- A double; a zero keeps its sign. -/
def numeral (style : Style) (x : Float) : List Char :=
  let sign := if x.toBits >>> 63 = 1 then ['-'] else []
  if x.isNaN then ['n', 'a', 'n']
  else if x.isInf then sign ++ ['i', 'n', 'f']
  else
    let v := Magnitude.ofBits x.toBits
    sign ++ if v.significand = 0 then '0' :: style.fraction [] else style.positive v.shortest

end Style

/-- The text of a coordinate. -/
def text (x : Float) : String := String.ofList (Style.coordinate.numeral x)

end Folio.Decimal
