/-!
# Paths

A path is an anchor and a list of components. Reading a text drops empty components and `.`, and
keeps `..`; exactly two leading slashes are an anchor of their own. `Path.text` writes the path
back in this normal form.

The last component of a path is its name, and a name is a stem followed by a suffix that starts
at the last dot; a dot at either end of the name starts no suffix.
-/

namespace Folio

/-- What a path starts from. -/
inductive Anchor where
  | relative
  | root
  | doubleRoot
  deriving DecidableEq, Repr

/-- An anchor and the components below it. -/
structure Path where
  anchor : Anchor
  parts : List String
  deriving DecidableEq, Repr

/-- The pieces between slashes; there is one more of them than slashes. -/
def slashPieces : List Char → List (List Char)
  | [] => [[]]
  | c :: cs =>
    if c = '/' then [] :: slashPieces cs
    else
      match slashPieces cs with
      | [] => [[c]]
      | piece :: pieces => (c :: piece) :: pieces

theorem slashPieces_ne_nil (cs : List Char) : slashPieces cs ≠ [] := by
  cases cs with
  | nil => simp [slashPieces]
  | cons c cs =>
    unfold slashPieces
    split
    · simp
    · split <;> simp

/-- No piece holds a slash. -/
theorem slash_notMem_of_mem_slashPieces {cs piece : List Char} (h : piece ∈ slashPieces cs) :
    '/' ∉ piece := by
  induction cs generalizing piece with
  | nil => simp_all [slashPieces]
  | cons c cs ih =>
    unfold slashPieces at h
    split at h
    · next hc =>
      rcases List.mem_cons.1 h with rfl | h
      · simp
      · exact ih h
    · next hc =>
      split at h
      · simp_all [Ne.symm hc]
      · next first rest heq =>
        rcases List.mem_cons.1 h with rfl | h
        · simp [Ne.symm hc, ih (heq ▸ List.mem_cons_self)]
        · exact ih (heq ▸ List.mem_cons_of_mem _ h)

namespace Anchor

/-- The anchor that a text starts with. -/
def ofChars : List Char → Anchor
  | '/' :: '/' :: '/' :: _ => root
  | '/' :: '/' :: _ => doubleRoot
  | '/' :: _ => root
  | _ => relative

/-- The leading slashes of a path. -/
def text : Anchor → String
  | relative => ""
  | root => "/"
  | doubleRoot => "//"

end Anchor

namespace Path

/-- Reads a text as a path. -/
def ofText (s : String) : Path where
  anchor := .ofChars s.toList
  parts := ((slashPieces s.toList).map String.ofList).filter fun part => part ≠ "" ∧ part ≠ "."

/-- Does a text end in the way that only directories are named, with a slash? -/
def endsInSlash (s : String) : Bool := (slashPieces s.toList).getLast? == some []

/-- Does a text end in a component that stands for a directory, in `.` or `..`? -/
def endsInDots (s : String) : Bool :=
  match ((slashPieces s.toList).filter (· ≠ [])).getLast? with
  | some piece => piece = ['.'] || piece = ['.', '.']
  | none => false

/-- The normal form of a path; a relative path without components is `.`. -/
def text (p : Path) : String :=
  match p.anchor, p.parts with
  | .relative, [] => "."
  | anchor, parts => anchor.text ++ "/".intercalate parts

/-- The path `q` seen from `p`. An anchored `q` does not depend on `p`. -/
def join (p q : Path) : Path :=
  match q.anchor with
  | .relative => { p with parts := p.parts ++ q.parts }
  | _ => q

instance : HDiv Path String Path := ⟨fun p s => p.join (ofText s)⟩

/-- The path without its last component. -/
def parent (p : Path) : Path := { p with parts := p.parts.dropLast }

/-- The last component, empty if there is none. -/
def name (p : Path) : String := p.parts.getLastD ""

/-- A path with U+0000 in it names nothing. -/
def hasNul (p : Path) : Bool := p.parts.any fun part => part.toList.contains (Char.ofNat 0)

end Path

namespace FileName

/-- The suffix of a name: what starts at the last dot, unless that dot is at either end. -/
def suffix (name : List Char) : List Char :=
  let after := (name.reverse.takeWhile (· ≠ '.')).reverse
  if after ≠ [] ∧ after.length + 1 < name.length then '.' :: after else []

/-- The name without its suffix. -/
def stem (name : List Char) : List Char := name.take (name.length - (suffix name).length)

/-- Lower case for ASCII letters. The lower case of any other character holds none of the letters
that a suffix is tested for. -/
def lower (s : List Char) : List Char := s.map Char.toLower

/-- The suffix of documents. -/
def documentSuffix : List Char := ".pdf".toList

end FileName

end Folio
