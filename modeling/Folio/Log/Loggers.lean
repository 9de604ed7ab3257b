import Folio.FileTree.Operations
import Folio.Log.Record
import Folio.Naming.Timestamp

/-!
# Loggers

Loggers have dotted names and report to those above them, up to the root. Each has a level, where
`0` leaves the decision to the loggers above, and handlers that write records to the console or to
a file. `deliver` sends a record to all handlers on its way up. Lines show neither the time nor the
place at which a record was made; the words `TIME` and `FUNC` stand for them.
-/

namespace Folio.Log

/-- Where a handler writes to. -/
inductive Outlet where
  | console
  | file (location : Location)
  deriving DecidableEq, Repr

/-- A handler writes records of at least its level. -/
structure Handler where
  outlet : Outlet
  level : Level
  deriving DecidableEq, Repr

/-- A logger. -/
structure Logger where
  level : Level
  handlers : List Handler
  deriving DecidableEq, Repr

/-- A logger below the root: its name, and the name of the logger that it reports to. Those without
one report to the root. -/
structure Member where
  name : String
  superior : Option String
  logger : Logger
  deriving DecidableEq, Repr

/-- The loggers that have been asked for. The root is always there. -/
structure Loggers where
  root : Logger
  members : List Member
  deriving DecidableEq, Repr

/-- The name of the root. -/
def rootName : String := "root"

namespace Loggers

/-- No logger but the root, which lets warnings through. -/
def initial : Loggers := ⟨⟨.warning, []⟩, []⟩

/-- Is this a name of the root? -/
def isRoot (name : String) : Bool := name = "" || name = rootName

/-- The logger of a name below the root, if it has been asked for. -/
def member? (ls : Loggers) (name : String) : Option Member :=
  ls.members.find? fun m => m.name = name

/-- The logger with a name. -/
def find (ls : Loggers) (name : String) : Logger :=
  if isRoot name then ls.root else ((ls.member? name).map Member.logger).getD ⟨0, []⟩

/-! ## The way up -/

/-- The beginnings of a name that end before a dot, the longest first. Of dots side by side only
the last one counts, and a dot in front of everything does not. -/
def beginnings (name : List Char) : List (List Char) :=
  let dots := (List.range name.length).filter fun i => 0 < i && name[i]? == some '.'
  (dots.foldr (fun i chosen =>
    match chosen.getLast? with
    | some j => if i + 2 ≤ j then chosen ++ [i] else chosen
    | none => [i]) []).map name.take

/-- The nearest logger above a name. -/
def nearestAbove (ls : Loggers) (name : String) : Option String :=
  ((beginnings name.toList).map String.ofList).find? fun b => (ls.member? b).isSome

/-- The logger that one of a name reports to. One that has not been asked for has the nearest above
it. -/
def superior (ls : Loggers) (name : String) : Option String :=
  match ls.member? name with
  | some m => m.superior
  | none => ls.nearestAbove name

/-- The names that a logger reports to, one after the other; at most `limit` steps are taken. -/
def above (ls : Loggers) : Nat → String → List String
  | 0, _ => []
  | limit + 1, name =>
    match ls.superior name with
    | none => []
    | some next => next :: above ls limit next

/-- The loggers that a record meets: its own, those above, and the root. -/
def wayUp (ls : Loggers) (name : String) : List Logger :=
  if isRoot name then [ls.root]
  else ls.find name :: (ls.above name.length name).map ls.find ++ [ls.root]

/-- The level that counts for a logger: the nearest one on the way up that is not `0`. -/
def effectiveLevel (ls : Loggers) (name : String) : Level :=
  (((ls.wayUp name).map Logger.level).find? fun l => l ≠ 0).getD 0

/-! ## New loggers -/

/-- Does a logger report to a new one above it from now on? It does unless the name of the logger
that it reports to begins with the new name, letter by letter. A logger above it that it reports to
has a name that does, but so does the root if the new name is a beginning of `root`. -/
def comesUnder (m : Member) (name : String) : Bool :=
  (beginnings m.name.toList).contains name.toList &&
    !name.toList.isPrefixOf (m.superior.getD rootName).toList

/-- The loggers with a new one among them. -/
def enroll (ls : Loggers) (name : String) (l : Logger) : Loggers :=
  let below := ls.members.map fun m =>
    if comesUnder m name then { m with superior := some name } else m
  { ls with members := below ++ [⟨name, ls.nearestAbove name, l⟩] }

/-- The loggers with one of them set. -/
def set (ls : Loggers) (name : String) (l : Logger) : Loggers :=
  if isRoot name then { ls with root := l }
  else if (ls.member? name).isSome then
    { ls with members :=
        ls.members.map fun m => if m.name = name then { m with logger := l } else m }
  else ls.enroll name l

/-- Makes sure that there is a logger of a name. -/
def know (ls : Loggers) (name : String) : Loggers := ls.set name (ls.find name)

/-! ## Setting up -/

/-- Asks for a logger. One without handlers gets a console handler and a level. -/
def get (ls : Loggers) (name : String) (level : Option Level) : Loggers :=
  let l := ls.find name
  if l.handlers = [] then
    ls.set name ⟨level.getD .info, [⟨.console, level.getD .info⟩]⟩
  else ls.set name l

/-- Changes the level of the package logger and of its console handlers. -/
def setLevel (ls : Loggers) (level : Level) : Loggers :=
  let l := ls.find packageLogger
  ls.set packageLogger
    ⟨level, l.handlers.map fun h => if h.outlet = .console then { h with level } else h⟩

/-- Sends everything that the package logs to a file, too. -/
def addFile (ls : Loggers) (location : Location) : Loggers :=
  let l := ls.find packageLogger
  ls.set packageLogger ⟨.debug, l.handlers ++ [⟨.file location, .debug⟩]⟩

/-- The name of a log file that was begun at a given time. -/
def fileName (time : Instant) : String :=
  "split_spreads_" ++ String.ofList time.stampChars ++ ".log"

/-- Makes a directory and a log file in it, and sends everything to that file. Returns the path of
the file. -/
def openFile (ls : Loggers) (t : FileTree) (directory file : String) :
    Except FileError (Path × Loggers) × FileTree :=
  let dir := Path.ofText directory
  match t.makeDirectories dir with
  | (.error e, t) => (.error e, t)
  | (.ok (), t) =>
    match t.openLog (t.pathTo (t.lexical (dir / file))) with
    | .error e => (.error e, t)
    | .ok (location, t) => (.ok (dir / file, ls.addFile location), t)

/-! ## Delivery -/

/-- The name that records of a logger show. -/
def shownName (name : String) : String := if isRoot name then "root" else name

/-- A record as a line on the console. -/
def consoleLine (r : Record) : String :=
  s!"TIME - {shownName r.logger} - {r.level.text} - {r.message}\n"

/-- A record as a line of a log file. -/
def fileLine (r : Record) : String :=
  s!"TIME - {shownName r.logger} - {r.level.text} - FUNC - {r.message}\n"

/-- What a handler does with a record. -/
def handle (r : Record) (out : String × FileTree) (h : Handler) : String × FileTree :=
  if r.level < h.level then out
  else
    match h.outlet with
    | .console => (out.1 ++ consoleLine r, out.2)
    | .file l => (out.1, out.2.append l (fileLine r))

/-- Delivers a record; returns what goes to the console. A warning that no handler is there for
goes to the console as it is. -/
def deliver (ls : Loggers) (r : Record) (out : String × FileTree) : String × FileTree :=
  if r.level ≤ 0 ∨ r.level < ls.effectiveLevel r.logger then out
  else
    match (ls.wayUp r.logger).flatMap Logger.handlers with
    | [] => if r.level < .warning then out else (out.1 ++ r.message ++ "\n", out.2)
    | handlers => handlers.foldl (handle r) out

/-- Delivers records one after the other. -/
def deliverAll (ls : Loggers) (records : List Record) (out : String × FileTree) :
    String × FileTree :=
  records.foldl (fun out r => ls.deliver r out) out

end Loggers

end Folio.Log
