import Folio.Cli.Token

/-!
# Arguments

What a command line asks for. Options are taken in the order in which they are given, a later one
in place of an earlier one; asking for help ends the reading at once.
-/

namespace Folio.Cli

/-- What stands in the place of the only value of an option. -/
inductive Value where
  | text (s : String)
  /-- The separator `--`, which is no value. -/
  | withheld
  deriving DecidableEq, Repr

/-- The text of a value; a value that is withheld is as good as an empty one. -/
def Value.orEmpty : Value → String
  | text s => s
  | withheld => ""

/-- What a complete command line asks for. -/
structure Arguments where
  inputs : List String
  output : Value
  pattern : Value
  overwrite : Bool
  version : Option Value
  repagination : Value
  password : Option Value
  verbose : Bool
  logDirectory : Option Value
  deriving DecidableEq, Repr

/-- What has been asked for so far. -/
structure Collected where
  inputs : Option (List String)
  output : Option Value
  pattern : Value
  overwrite : Bool
  version : Option Value
  repagination : Value
  password : Option Value
  verbose : Bool
  logDirectory : Option Value
  /-- Has help been asked for? -/
  help : Bool
  /-- Arguments that belong to no option. -/
  extras : List String
  deriving DecidableEq, Repr

namespace Collected

/-- Nothing has been asked for. -/
def initial : Collected where
  inputs := none
  output := none
  pattern := .text "[BASENAME]_split"
  overwrite := false
  version := none
  repagination := .text Repagination.none.text
  password := none
  verbose := false
  logDirectory := none
  help := false
  extras := []

/-- Takes an option with its only value. -/
def takeOne (c : Collected) (opt : Opt) (value : Value) : Collected :=
  match opt with
  | .output => { c with output := some value }
  | .pattern => { c with pattern := value }
  | .version => { c with version := some value }
  | .repagination => { c with repagination := value }
  | .password => { c with password := some value }
  | .logDirectory => { c with logDirectory := some value }
  | _ => c

/-- Takes an option with its values, the first separator among them left out. -/
def take (c : Collected) (opt : Opt) (given : List String) : Except UsageError Collected :=
  match opt.arity, given.erase "--" with
  | .nothing, _ =>
    match opt with
    | .help => .ok { c with help := true }
    | .overwrite => .ok { c with overwrite := true }
    | _ => .ok { c with verbose := true }
  | .many, values => .ok { c with inputs := some values }
  | .one, value :: _ =>
    match opt.choices with
    | some choices =>
      if value ∈ choices then .ok (c.takeOne opt (.text value))
      else .error (.invalidChoice opt value choices)
    | none => .ok (c.takeOne opt (.text value))
  | .one, [] => .ok (c.takeOne opt .withheld)

/-- Takes options without values, up to one that asks for help. -/
def takeFlags (c : Collected) : List Opt → Except UsageError Collected
  | [] => .ok c
  | opt :: rest => if c.help then .ok c else c.take opt [] >>= fun c => c.takeFlags rest

end Collected

/-- How a cluster of letters behind one dash ends. -/
inductive ClusterEnd where
  /-- With an option that finds its values in the following arguments. -/
  | bare (opt : Opt)
  /-- With an option and its value. -/
  | valued (opt : Opt) (value : String)
  deriving DecidableEq, Repr

/-- Reads what is attached to an option behind a single dash: a value, or the letters of further
options. The options in front of the end take nothing. -/
def cluster (opt : Opt) : List Char → Except UsageError (List Opt × ClusterEnd)
  | [] =>
    if opt.arity = .nothing then .error (.ignoredValue opt "") else .ok ([], .valued opt "")
  | c :: rest =>
    if opt.arity ≠ .nothing then .ok ([], .valued opt (String.ofList (c :: rest)))
    else
      match Opt.ofLetter? c, rest with
      | none, _ => .error (.ignoredValue opt (String.ofList (c :: rest)))
      | some next, [] => .ok ([opt], .bare next)
      | some next, more => (cluster next more).map fun (opts, last) => (opt :: opts, last)

/-- The values at the beginning of a list of tokens, and the tokens behind them. -/
def leadingValues : List Token → List String × List Token
  | .value v :: rest =>
    let (values, rest) := leadingValues rest
    (v :: values, rest)
  | rest => ([], rest)

/-- The values that an option finds in the tokens behind it. -/
def valuesFor (opt : Opt) (tokens : List Token) : Except UsageError (List String × List Token) :=
  match opt.arity, tokens with
  | .nothing, _ => .ok ([], tokens)
  | .one, .value v :: rest => .ok ([v], rest)
  | .one, _ => .error (.noValue opt)
  | .many, _ =>
    match leadingValues tokens with
    | ([], _) => .error (.noValue opt)
    | found => .ok found

/-- What an option token asks for: options that take nothing, and how they end. -/
def requestOf (opt : Opt) (long : Bool) :
    Option (List Char) → Except UsageError (List Opt × ClusterEnd)
  | none => .ok ([], .bare opt)
  | some attached =>
    if long then
      if opt.arity = .nothing then .error (.ignoredValue opt (String.ofList attached))
      else .ok ([], .valued opt (String.ofList attached))
    else cluster opt attached

/-- Takes an option token; returns the tokens that are left. -/
def takeOption (c : Collected) (opt : Opt) (long : Bool) (attached : Option (List Char))
    (rest : List Token) : Except UsageError (Collected × List Token) := do
  let (flags, last) ← requestOf opt long attached
  match last with
  | .bare opt =>
    let (values, rest) ← valuesFor opt rest
    let c ← c.takeFlags flags
    if c.help then return (c, rest) else return (← c.take opt values, rest)
  | .valued opt value =>
    let c ← c.takeFlags flags
    if c.help then return (c, rest) else return (← c.take opt [value], rest)

/-- Takes tokens one after the other; every step uses up at least one of them. -/
def collect : Nat → Collected → List Token → Except UsageError Collected
  | 0, c, _ => .ok c
  | _, c, [] => .ok c
  | limit + 1, c, token :: rest =>
    if c.help then .ok c
    else
      match token with
      | .separator => collect limit { c with extras := c.extras ++ ["--"] } rest
      | .value v => collect limit { c with extras := c.extras ++ [v] } rest
      | .unknown v => collect limit { c with extras := c.extras ++ [v] } rest
      | .option opt long attached =>
        match takeOption c opt long attached rest with
        | .error e => .error e
        | .ok (c, rest) => collect limit c rest

/-- What a command line comes to. -/
inductive Request where
  | help
  | arguments (a : Arguments)
  deriving DecidableEq, Repr

/-- Checks that nothing is missing and nothing is left over. -/
def Collected.finish (c : Collected) : Except UsageError Request :=
  if c.help then .ok .help
  else
    match c.inputs, c.output with
    | some inputs, some output =>
      if c.extras = [] then
        .ok (.arguments
          { inputs, output, pattern := c.pattern, overwrite := c.overwrite, version := c.version
            repagination := c.repagination, password := c.password, verbose := c.verbose
            logDirectory := c.logDirectory })
      else .error (.unrecognized c.extras)
    | none, some _ => .error (.missing [.input])
    | some _, none => .error (.missing [.output])
    | none, none => .error (.missing [.input, .output])

/-- Reads a command line. -/
def Request.ofArguments (arguments : List String) : Except UsageError Request := do
  let tokens ← Token.ofArguments arguments
  (← collect tokens.length .initial tokens).finish

end Folio.Cli
