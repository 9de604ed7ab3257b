import Folio.Batch.Run
import Folio.Cli.Arguments
import Folio.Cli.Inputs
import Folio.Cli.Usage
import Folio.Log.Loggers
import Folio.Pdf.Draft

/-!
# The program

What one call of the program does: it reads the command line, sets up logging, gathers the inputs
and runs a batch on them. Failures that belong to splitting are told to the user and give the exit
status `1`; others leave the program as they are.
-/

namespace Folio.Cli

/-- How a call ends. -/
inductive Ending where
  /-- With an exit status, after the whole work. -/
  | status (code : Nat)
  /-- With an exit status, before any work. -/
  | refused (code : Nat)
  /-- With a failure that is not the program's to handle. -/
  | failed (f : Failure)

/-- What a call leaves behind. -/
structure Result where
  ending : Ending
  stdout : String
  stderr : String
  tree : FileTree
  /-- The number of the last temporary buffer. -/
  buffers : Nat

/-- The logger that the program speaks through. -/
def startLoggers : Log.Loggers := Log.Loggers.initial.get Log.packageLogger none

/-- Raises the detail of the console. -/
def verboseLoggers (verbose : Bool) : Log.Loggers :=
  if verbose then startLoggers.setLevel .debug else startLoggers

/-- Sets up logging. -/
def setUpLogging (t : FileTree) (now : Instant) (a : Arguments) :
    Except FileError Log.Loggers × FileTree :=
  let loggers := verboseLoggers a.verbose
  match (a.logDirectory.map Value.orEmpty).getD "" with
  | "" => (.ok loggers, t)
  | directory =>
    let (opened, t) := loggers.openFile t directory (Log.Loggers.fileName now)
    (opened.map Prod.snd, t)

/-- The settings of the batch over the gathered inputs. An output directory is needed first, then
a repagination mode, then a version. -/
def settingsFor (a : Arguments) (inputs : List Path) : Except Failure (Settings Pdf.Source) :=
  let sources := inputs.map fun p => Pdf.Source.of p (a.password.map Value.orEmpty) none
  let make (output word : String) (version : Option String) :=
    Settings.make sources (some (.ofText output)) a.pattern.orEmpty a.overwrite version word
  match a.output, a.repagination, a.version with
  | .withheld, _, _ => .error .withheldOutput
  | _, .withheld, _ => .error .withheldRepagination
  | _, _, some .withheld => .error .withheldVersion
  | .text output, .text word, some (.text version) => make output word (some version)
  | .text output, .text word, none => make output word none

/-- The lines that tell how many sources are done. -/
def progressText (trace : List (Batch.Event Pdf.Handle Pdf.Draft)) : String :=
  String.join (trace.map fun e =>
    match e with
    | .reported current total => s!"[{current}/{total}] done\n"
    | _ => "")

/-- The record of a failure that is told to the user. -/
def failureRecord (f : Failure) : Log.Record := ⟨Log.packageLogger, .error, f.message⟩

/-- Runs the batch over a number of inputs. -/
def runBatch (t : FileTree) (buffers : Nat) (now : Instant) (loggers : Log.Loggers)
    (settings : Settings Pdf.Source) (stderr : String) : Result :=
  let start := Batch.State.start ⟨t, buffers, .empty settings.overwrite, []⟩
  let (outcome, final) :=
    (Batch.run Pdf.medium (Batch.namerAt now) Batch.Notifier.silent settings).run start
  let (ending, last) : Ending × List Log.Record :=
    match outcome with
    | .ok _ => (.status 0, [])
    | .error f => if f.isSplitting then (.status 1, [failureRecord f]) else (.failed f, [])
  let (stderr, tree) := loggers.deliverAll (final.store.log ++ last) (stderr, final.store.tree)
  { ending, stderr, tree, buffers := final.store.buffers
    stdout := s!"Processing {settings.sources.length} file(s)...\n" ++ progressText final.trace }

/-- Does what a complete command line asks for. -/
def execute (t : FileTree) (buffers : Nat) (now : Instant) (a : Arguments) : Result :=
  match setUpLogging t now a with
  | (.error e, tree) => { ending := .failed (.file e), stdout := "", stderr := "", tree, buffers }
  | (.ok loggers, tree) =>
    let (warnings, found) := gather tree a.inputs
    let (stderr, tree) := loggers.deliverAll warnings ("", tree)
    match found with
    | .error e => { ending := .failed (.file e), stdout := "", stderr, tree, buffers }
    | .ok [] =>
      { ending := .status 1, stdout := "", tree, buffers
        stderr := stderr ++ "No PDF files found to process.\n" }
    | .ok inputs =>
      match settingsFor a inputs with
      | .error f => { ending := .failed f, stdout := "", stderr, tree, buffers }
      | .ok settings => runBatch tree buffers now loggers settings stderr

/-- One call of the program. -/
def call (t : FileTree) (buffers : Nat) (now : Instant) (arguments : List String) : Result :=
  match Request.ofArguments arguments with
  | .error e =>
    { ending := .refused 2, stdout := "", tree := t, buffers
      stderr := unlines (usageLines ++ [s!"{programName}: error: {e.message}"]) }
  | .ok .help =>
    { ending := .refused 0, stdout := unlines helpLines, stderr := "", tree := t, buffers }
  | .ok (.arguments a) => execute t buffers now a

end Folio.Cli
