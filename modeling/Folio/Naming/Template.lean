/-!
# Templates

The pattern of an output name is a text with placeholders. It is read in a single pass from left
to right: at each place either one placeholder begins, and the reading goes on behind it, or the
character there stands for itself. What is put in for a placeholder is not read again.
-/

namespace Folio.Naming

/-- What a placeholder stands for. -/
inductive Field where
  | baseName
  | fileNumber
  | timestamp
  deriving DecidableEq, Repr

namespace Field

/-- All fields. -/
def all : List Field := [baseName, fileNumber, timestamp]

/-- The placeholder of a field. -/
def placeholder : Field → List Char
  | baseName => "[BASENAME]".toList
  | fileNumber => "[FILENUMBER]".toList
  | timestamp => "[TIMESTAMP]".toList

/-- The field whose placeholder a text begins with. -/
def atStart? (cs : List Char) : Option Field := all.find? fun f => f.placeholder.isPrefixOf cs

end Field

/-- A piece of a template. -/
inductive Piece where
  | literal (c : Char)
  | field (f : Field)
  deriving DecidableEq, Repr

namespace Template

/-- Reads a text that starts with `skip` more characters of a placeholder. -/
def scanFrom : Nat → List Char → List Piece
  | _, [] => []
  | skip + 1, _ :: cs => scanFrom skip cs
  | 0, c :: cs =>
    match Field.atStart? (c :: cs) with
    | some f => .field f :: scanFrom (f.placeholder.length - 1) cs
    | none => .literal c :: scanFrom 0 cs

/-- The pieces of a template. -/
def scan (cs : List Char) : List Piece := scanFrom 0 cs

/-- The text that a list of pieces was read from. -/
def text (ps : List Piece) : List Char :=
  ps.flatMap fun p => match p with | .literal c => [c] | .field f => f.placeholder

/-- Is there a placeholder among the pieces? -/
def hasField (ps : List Piece) : Bool :=
  ps.any fun p => match p with | .field _ => true | .literal _ => false

/-- The text with every field replaced by its value. -/
def fill (value : Field → List Char) (ps : List Piece) : List Char :=
  ps.flatMap fun p => match p with | .literal c => [c] | .field f => value f

section
variable (value : Field → List Char) (ps : List Piece)

@[simp] theorem text_nil : text [] = [] := rfl

@[simp] theorem text_literal (c : Char) : text (.literal c :: ps) = c :: text ps := rfl

@[simp] theorem text_field (f : Field) : text (.field f :: ps) = f.placeholder ++ text ps := rfl

@[simp] theorem fill_nil : fill value [] = [] := rfl

@[simp] theorem fill_literal (c : Char) :
    fill value (.literal c :: ps) = c :: fill value ps := rfl

@[simp] theorem fill_field (f : Field) :
    fill value (.field f :: ps) = value f ++ fill value ps := rfl

end

/-! ## Reading -/

theorem scanFrom_eq_scan_drop (skip : Nat) (cs : List Char) :
    scanFrom skip cs = scan (cs.drop skip) := by
  induction cs generalizing skip with
  | nil => cases skip <;> rfl
  | cons c cs ih =>
    cases skip with
    | zero => rfl
    | succ skip => exact ih skip

theorem placeholder_of_atStart? {cs : List Char} {f : Field} (h : Field.atStart? cs = some f) :
    f.placeholder ++ cs.drop f.placeholder.length = cs := by
  have hp : f.placeholder.isPrefixOf cs = true := by
    unfold Field.atStart? at h
    exact List.find?_some (p := fun (f : Field) => f.placeholder.isPrefixOf cs) h
  obtain ⟨rest, rfl⟩ := List.isPrefixOf_iff_prefix.1 hp
  simp

theorem atStart?_placeholder_append (f : Field) (cs : List Char) :
    Field.atStart? (f.placeholder ++ cs) = some f := by
  cases f <;> rfl

theorem scan_cons_of_atStart? {c : Char} {cs : List Char} (h : Field.atStart? (c :: cs) = none) :
    scan (c :: cs) = .literal c :: scan cs := by
  rw [scan, scanFrom, h]
  rfl

theorem scan_placeholder_append (f : Field) (cs : List Char) :
    scan (f.placeholder ++ cs) = .field f :: scan cs := by
  have hstart := atStart?_placeholder_append f cs
  obtain ⟨c, rest, hc⟩ : ∃ c rest, f.placeholder = c :: rest := by cases f <;> exact ⟨_, _, rfl⟩
  rw [hc, List.cons_append] at hstart ⊢
  rw [scan, scanFrom, hstart]
  simp [scanFrom_eq_scan_drop, hc]

/-- Induction along the reading of a text: it is empty, begins with a character that stands for
itself, or begins with a placeholder. -/
@[elab_as_elim]
theorem scan_induction {motive : List Char → Prop} (nil : motive [])
    (literal : ∀ c cs, Field.atStart? (c :: cs) = none → motive cs → motive (c :: cs))
    (field : ∀ f cs, motive cs → motive (Field.placeholder f ++ cs)) (cs : List Char) :
    motive cs := by
  induction h : cs.length using Nat.strongRecOn generalizing cs with
  | ind n ih =>
    cases cs with
    | nil => exact nil
    | cons c cs =>
      cases hf : Field.atStart? (c :: cs) with
      | none => exact literal c cs hf (ih cs.length (by simp [← h]) cs rfl)
      | some f =>
        have hpos : 0 < f.placeholder.length := by cases f <;> decide
        have hlt : ((c :: cs).drop f.placeholder.length).length < n := by
          rw [List.length_drop, ← h]
          simp only [List.length_cons]
          omega
        rw [← placeholder_of_atStart? hf]
        exact field f _ (ih _ hlt _ rfl)

/-- The pieces of a text, put together again, are that text. -/
theorem text_scan (cs : List Char) : text (scan cs) = cs := by
  induction cs using scan_induction with
  | nil => rfl
  | literal c cs h ih => rw [scan_cons_of_atStart? h, text_literal, ih]
  | field f cs ih => rw [scan_placeholder_append, text_field, ih]

end Template

end Folio.Naming
