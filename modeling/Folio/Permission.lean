/-!
# Permissions

What the author of an encrypted document may grant to readers who do not own it. Each permission
is one bit of an integer of unbounded width in two's complement.
-/

namespace Folio

/-- Something that a reader may be allowed to do with a document. -/
inductive Permission where
  | print
  | modify
  | copyAndExtract
  | annotate
  | fillForms
  | assemble
  deriving DecidableEq, Repr

/-- Bit `b` of an integer in two's complement. -/
def bitSet : Int → Nat → Bool
  | .ofNat n, b => n.testBit b
  | .negSucc n, b => !n.testBit b

namespace Permission

/-- All permissions. -/
def all : List Permission := [print, modify, copyAndExtract, annotate, fillForms, assemble]

/-- The place of the bit of a permission. -/
def bit : Permission → Nat
  | print => 2
  | modify => 3
  | copyAndExtract => 4
  | annotate => 5
  | fillForms => 8
  | assemble => 10

/-- The integer that has only the bit of a permission. -/
def mask (p : Permission) : Nat := 1 <<< p.bit

/-- The word for a permission. -/
def text : Permission → String
  | print => "PRINT"
  | modify => "MODIFY"
  | copyAndExtract => "COPY_AND_EXTRACT"
  | annotate => "ANNOTATE"
  | fillForms => "FILL_FORMS"
  | assemble => "ASSEMBLE"

/-- Reads the word for a permission. -/
def ofText? (s : String) : Option Permission := all.find? fun p => p.text = s

/-- Do the flags of a document grant a permission? -/
def grantedBy (flags : Int) (p : Permission) : Bool := bitSet flags p.bit

end Permission

end Folio
