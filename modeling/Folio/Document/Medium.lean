import Folio.Failure
import Folio.FileTree.Move
import Folio.Log.Record

/-!
# Media

A medium says how documents of one kind are opened, built and saved. Everything that happens to
documents during a batch goes through the fields of `Medium`, so what a batch guarantees holds for
every kind of document.
-/

namespace Folio

/-- A page of a source: what is on it and the box that is cut. -/
structure SourcePage (κ : Type) where
  content : κ
  box : Box Float

/-- Documents of one kind: sources are referred to by `ρ` and read through a handle `σ`, the
content of a page is a `κ`, and a document that is being built is a `δ`. -/
structure Medium (ρ σ κ δ : Type) where
  /-- The name of a source, from which its output is named. -/
  name : ρ → String
  /-- How messages refer to a source. -/
  text : ρ → String
  /-- Opens a source. -/
  openSource : FileTree → ρ → Except Failure σ
  /-- The name of an opened source. -/
  sourceName : σ → String
  /-- Refuses a permission that the source does not grant. -/
  ensure : Permission → σ → Except Failure Unit
  /-- The pages of a source, each of which may turn out to be unreadable. -/
  pages : σ → List (Except Failure (SourcePage κ))
  /-- Does closing the source succeed? -/
  sourceCloses : σ → Bool
  /-- A new document, the one after so many others. -/
  newDraft : Nat → Except Failure δ
  /-- The name of a draft. -/
  draftName : δ → String
  /-- Sets the version that the document is saved in. -/
  setVersion : Option String → δ → Except Failure δ
  /-- Takes over what describes a source; the draft is left as it is when that stops. -/
  describe : σ → δ → Except Failure Unit × δ
  /-- Adds a page at the end, cropped or as it is. -/
  addPage : κ → Option (Box Float) → δ → δ
  /-- The number of pages. -/
  pageCount : δ → Nat
  /-- Moves the page at a position to the end. -/
  moveToEnd : Int → δ → Except Failure Unit × δ
  /-- What a draft is once it has been sent to a file, whether or not that succeeds. -/
  sent : δ → δ
  /-- What a draft is saved as. -/
  content : δ → Except Failure Content
  /-- The failure of a draft that cannot be written to a path. -/
  unsaved : δ → Path → FileError → Failure
  /-- What is noted when a draft has been saved. -/
  savedNotes : δ → Path → List Log.Record
  /-- Does closing the draft succeed? -/
  draftCloses : δ → Bool

namespace Medium

variable {ρ σ κ δ : Type}

/-- Writes a draft that has been sent to a file. -/
def save (m : Medium ρ σ κ δ) (t : FileTree) (p : Path) (d : δ) : Except Failure FileTree :=
  match m.content d with
  | .error f => .error f
  | .ok content => (t.write p content).mapError (m.unsaved d p)

/-- Sends a draft to a file; returns the tree with the file in it and what is noted, or the failure,
and in either case the draft as it is then. -/
def send (m : Medium ρ σ κ δ) (t : FileTree) (p : Path) (d : δ) :
    Except Failure (FileTree × List Log.Record) × δ :=
  ((m.save t p (m.sent d)).map fun t => (t, m.savedNotes (m.sent d) p), m.sent d)

end Medium

end Folio
