import Folio.Pages.Repagination
import Folio.Pdf.File
import Folio.Text.Quoted

/-!
# Command line options

The options of the program, how they are spelled, what they take, and what can be wrong with a
command line.
-/

namespace Folio.Cli

/-- An option. -/
inductive Opt where
  | help
  | input
  | output
  | pattern
  | overwrite
  | version
  | repagination
  | password
  | verbose
  | logDirectory
  deriving DecidableEq, Repr

/-- What an option takes. -/
inductive Arity where
  | nothing
  | one
  | many
  deriving DecidableEq, Repr

namespace Opt

/-- All options, in the order in which they are shown. -/
def all : List Opt :=
  [help, input, output, pattern, overwrite, version, repagination, password, verbose, logDirectory]

/-- The spellings of an option. -/
def spellings : Opt → List String
  | help => ["-h", "--help"]
  | input => ["-i", "--input"]
  | output => ["-o", "--output"]
  | pattern => ["-p", "--prefix"]
  | overwrite => ["--overwrite"]
  | version => ["--pdf-version"]
  | repagination => ["--repagination"]
  | password => ["--password"]
  | verbose => ["-v", "--verbose"]
  | logDirectory => ["--log-dir"]

/-- How messages refer to an option. -/
def label (o : Opt) : String := "/".intercalate o.spellings

/-- What an option takes. -/
def arity : Opt → Arity
  | help | overwrite | verbose => .nothing
  | input => .many
  | _ => .one

/-- The values that an option is limited to, if it is. -/
def choices : Opt → Option (List String)
  | version => some Pdf.versions
  | repagination => some (Repagination.all.map Repagination.text)
  | _ => none

/-- The options without which nothing can be done. -/
def required : List Opt := [input, output]

/-- Every spelling with its option. -/
def table : List (String × Opt) := all.flatMap fun o => o.spellings.map fun s => (s, o)

/-- The option that a text spells. -/
def ofSpelling? (s : String) : Option Opt := table.lookup s

/-- The option that a letter behind a single dash spells. -/
def ofLetter? (c : Char) : Option Opt := ofSpelling? (String.ofList ['-', c])

end Opt

/-- What is wrong with a command line. -/
inductive UsageError where
  | ambiguous (argument : String) (matching : List String)
  | noValue (option : Opt)
  | ignoredValue (option : Opt) (value : String)
  | invalidChoice (option : Opt) (value : String) (choices : List String)
  | missing (options : List Opt)
  | unrecognized (arguments : List String)
  deriving DecidableEq, Repr

namespace UsageError

/-- The wording of a usage error. -/
def message : UsageError → String
  | ambiguous argument matching =>
    s!"ambiguous option: {argument} could match " ++ ", ".intercalate matching
  | noValue option =>
    s!"argument {option.label}: expected " ++
      (if option.arity = .many then "at least one argument" else "one argument")
  | ignoredValue option value =>
    s!"argument {option.label}: ignored explicit argument {Text.quoted value}"
  | invalidChoice option value choices =>
    s!"argument {option.label}: invalid choice: {Text.quoted value} (choose from " ++
      ", ".intercalate (choices.map Text.quoted) ++ ")"
  | missing options =>
    "the following arguments are required: " ++ ", ".intercalate (options.map Opt.label)
  | unrecognized arguments => "unrecognized arguments: " ++ " ".intercalate arguments

end UsageError

end Folio.Cli
