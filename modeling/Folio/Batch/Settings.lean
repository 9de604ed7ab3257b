import Folio.Naming.OutputName
import Folio.Pages.Repagination
import Folio.Failure
import Folio.Pdf.File

/-!
# Settings of a batch

What is to be split, where the outputs go, and how they are named and made.
-/

namespace Folio

/-- The settings of a batch over sources that are referred to by `ρ`. -/
structure Settings (ρ : Type) where
  sources : List ρ
  /-- The directory that outputs are committed to. -/
  output : Option Path
  /-- The pattern of output names. -/
  pattern : String
  /-- May outputs replace existing files? -/
  overwrite : Bool
  version : Option String
  repagination : Repagination

namespace Settings

variable {ρ : Type}

/-- Reads the word for a repagination mode. -/
def mode (word : String) : Except Failure Repagination :=
  match Repagination.ofText? word with
  | some mode => .ok mode
  | none => .error (.unknownRepagination word)

/-- Refuses a version that documents cannot be given. -/
def checkVersion : Option String → Except Failure Unit
  | none => .ok ()
  | some v => if v ∈ Pdf.versions then .ok () else .error (.unsupportedVersion v)

/-- Settings with a repagination mode that is given by its word. The mode is looked at before the
version. -/
def make (sources : List ρ) (output : Option Path) (pattern : String) (overwrite : Bool)
    (version : Option String) (word : String) : Except Failure (Settings ρ) := do
  let repagination ← mode word
  checkVersion version
  return { sources, output, pattern, overwrite, version, repagination }

/-- The directory for the outputs, once there is something to split and somewhere to put it. -/
def validate (s : Settings ρ) : Except Failure Path :=
  if s.sources.isEmpty then .error .noSource
  else
    match s.output with
    | none => .error .noOutput
    | some directory => .ok directory

end Settings

end Folio
