import Folio.Text.Printable

/-!
# Quoted text

Text is quoted between apostrophes, or between double quotes if it holds an apostrophe and no
double quote. The quote in use, the backslash and all that is not printable are escaped.
-/

namespace Folio.Text

/-- The low `width` hexadecimal digits of `n`, in lower case. -/
def hexDigits (width n : Nat) : List Char :=
  let ds := Nat.toDigits 16 n
  List.replicate (width - ds.length) '0' ++ ds

/-- The numeric escape of a character, of the shortest form that can hold it. -/
def numericEscape (c : Char) : List Char :=
  if c.toNat < 0x100 then '\\' :: 'x' :: hexDigits 2 c.toNat
  else if c.toNat < 0x10000 then '\\' :: 'u' :: hexDigits 4 c.toNat
  else '\\' :: 'U' :: hexDigits 8 c.toNat

/-- A character inside quotes of the kind `quote`. -/
def quoteChar (quote c : Char) : List Char :=
  if c = quote ∨ c = '\\' then ['\\', c]
  else if c = '\n' then ['\\', 'n']
  else if c = '\r' then ['\\', 'r']
  else if c = '\t' then ['\\', 't']
  else if isPrintable c then [c]
  else numericEscape c

/-- The quote that a text is written with. -/
def quoteFor (s : List Char) : Char :=
  if '\'' ∈ s ∧ '"' ∉ s then '"' else '\''

/-- The text between its quotes. -/
def quotedChars (s : List Char) : List Char :=
  quoteFor s :: (s.flatMap (quoteChar (quoteFor s)) ++ [quoteFor s])

/-- The text between its quotes. -/
def quoted (s : String) : String := String.ofList (quotedChars s.toList)

end Folio.Text
