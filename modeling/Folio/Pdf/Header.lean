import Folio.Pdf.File
import Folio.Text.Quoted

/-!
# The beginning of a document file

A document file begins with its header, followed by a line of four bytes that are no characters.
A reader takes the version from the first eight bytes of the file, whatever they belong to, and
writes bytes that are no characters, or only a part of one, as escapes. The first line is shown with
one character for each byte, without blanks at either end.
-/

namespace Folio.Pdf

/-- The text without the places where `marker` occurs, found from left to right; `skip` more
characters belong to the place found last. -/
def dropMarker (marker : List Char) : Nat → List Char → List Char
  | _, [] => []
  | skip + 1, _ :: cs => dropMarker marker skip cs
  | 0, c :: cs =>
    if marker.isPrefixOf (c :: cs) then dropMarker marker (marker.length - 1) cs
    else c :: dropMarker marker 0 cs

/-- What a header starts with. -/
def headerMarker : List Char := "%PDF-".toList

/-- How many bytes of a file are read for the version. -/
def versionWidth : Nat := 8

/-- The escape of a byte that is no character. -/
def byteEscape (b : UInt8) : List Char := '\\' :: 'x' :: Text.hexDigits 2 b.toNat

/-- The text of the first `width` bytes of a text, and how many of them are left when it ends. -/
def firstBytes : Nat → List Char → List Char × Nat
  | width, [] => ([], width)
  | width, c :: cs =>
    if c.utf8Size ≤ width then
      let (text, left) := firstBytes (width - c.utf8Size) cs
      (c :: text, left)
    else (((String.utf8EncodeChar c).take width).flatMap byteEscape, 0)

/-- The bytes behind the header, each as it is read. -/
def bytesBehindHeader : List (List Char) :=
  [['\n'], ['%'], byteEscape 0xe2, byteEscape 0xe3, byteEscape 0xcf, byteEscape 0xd3, ['\n'], ['1']]

/-- The blanks among the characters that one byte stands for. -/
def isBlank (c : Char) : Bool :=
  [9, 10, 11, 12, 13, 28, 29, 30, 31, 32, 133, 160].contains c.toNat

/-- A text without the blanks at both of its ends. -/
def withoutBlanks (cs : List Char) : List Char :=
  ((cs.dropWhile isBlank).reverse.dropWhile isBlank).reverse

namespace File

/-- The version that a file declares. -/
def version (f : File) : String :=
  let (text, left) := firstBytes versionWidth f.header.toList
  String.ofList (dropMarker headerMarker 0 (text ++ (bytesBehindHeader.take left).flatten))

/-- The first line of a file, with one character for each byte and without blanks around it. -/
def firstLine (f : File) : String :=
  let bytes := (f.header.toList.takeWhile (· ≠ '\n')).flatMap String.utf8EncodeChar
  String.ofList (withoutBlanks (bytes.map fun b => Char.ofNat b.toNat))

end File

end Folio.Pdf
