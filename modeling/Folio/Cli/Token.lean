import Folio.Cli.Options
import Folio.Text.Digits

/-!
# Tokens of a command line

Each argument is first read on its own: it is a value, an option, or the separator `--`, behind
which everything is a value. An option may be shortened as long as it stays unambiguous, and may
bring its value along, behind an equals sign or, after a single dash, directly.
-/

namespace Folio.Cli

/-- An argument, read on its own. -/
inductive Token where
  | separator
  | value (argument : String)
  /-- A known option; `long` tells whether it is spelled with two dashes, and `attached` is the text
  that it brings along. -/
  | option (opt : Opt) (long : Bool) (attached : Option (List Char))
  /-- Something that looks like an option but is none. -/
  | unknown (argument : String)
  deriving DecidableEq, Repr

namespace Token

/-- The text in front of the first equals sign, and what stands behind it. -/
def splitSign (cs : List Char) : List Char × Option (List Char) :=
  match cs.dropWhile (· ≠ '=') with
  | [] => (cs, none)
  | _ :: rest => (cs.takeWhile (· ≠ '='), some rest)

/-- Is a spelling one with two dashes? -/
def isLong (s : String) : Bool := ['-', '-'].isPrefixOf s.toList

/-- Is this the end of a line? -/
def isLineEnd (cs : List Char) : Bool := cs = [] || cs = ['\n']

/-- Is this a minus sign with a decimal number behind it, and nothing else on the line? -/
def isNegativeNumber : List Char → Bool
  | '-' :: cs =>
    let whole := cs.takeWhile Text.isDecimalDigit
    match cs.dropWhile Text.isDecimalDigit with
    | '.' :: rest =>
      let fraction := rest.takeWhile Text.isDecimalDigit
      !fraction.isEmpty && isLineEnd (rest.dropWhile Text.isDecimalDigit)
    | rest => !whole.isEmpty && isLineEnd rest
  | _ => false

/-- An argument that looks like an option but is none: negative numbers and texts with blanks are
values. -/
def stray (argument : String) : Token :=
  if isNegativeNumber argument.toList ∨ ' ' ∈ argument.toList then .value argument
  else .unknown argument

/-- An argument that starts with a single dash and a letter. -/
def ofShort (argument : String) (letter : Char) (rest : List Char) : Token :=
  match Opt.ofLetter? letter with
  | some opt => .option opt false (some rest)
  | none => stray argument

/-- An argument that starts with two dashes and is not spelled out. -/
def ofShortened (argument : String) : Except UsageError Token :=
  let (name, attached) := splitSign argument.toList
  match Opt.table.filter fun (s, _) => name.isPrefixOf s.toList with
  | [] => .ok (stray argument)
  | [(_, opt)] => .ok (.option opt true attached)
  | several => .error (.ambiguous argument (several.map Prod.fst))

/-- Reads an argument that stands in front of any separator. -/
def ofArgument (argument : String) : Except UsageError Token :=
  match argument.toList with
  | '-' :: second :: rest =>
    match Opt.ofSpelling? argument with
    | some opt => .ok (.option opt (isLong argument) none)
    | none =>
      let (name, attached) := splitSign argument.toList
      match attached, Opt.ofSpelling? (String.ofList name) with
      | some text, some opt => .ok (.option opt (isLong argument) (some text))
      | _, _ => if second = '-' then ofShortened argument else .ok (ofShort argument second rest)
  | _ => .ok (.value argument)

/-- Reads arguments; behind a separator everything is a value. -/
def ofArguments : List String → Except UsageError (List Token)
  | [] => .ok []
  | argument :: rest =>
    if argument = "--" then .ok (.separator :: rest.map .value)
    else
      match ofArgument argument with
      | .error e => .error e
      | .ok token => (ofArguments rest).map (token :: ·)

end Token

end Folio.Cli
