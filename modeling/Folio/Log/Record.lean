/-!
# Log records

A record says which logger it was sent to, how much it matters, and what happened.
-/

namespace Folio.Log

/-- How much a record matters. More is more urgent. -/
abbrev Level := Int

namespace Level

/-- The level of details. -/
def debug : Level := 10

/-- The level of progress. -/
def info : Level := 20

/-- The level of things to look at. -/
def warning : Level := 30

/-- The level of failures. -/
def error : Level := 40

/-- The level of failures that nothing can follow. -/
def critical : Level := 50

/-- The word for a level. -/
def text (level : Level) : String :=
  if level = 0 then "NOTSET"
  else if level = debug then "DEBUG"
  else if level = info then "INFO"
  else if level = warning then "WARNING"
  else if level = error then "ERROR"
  else if level = critical then "CRITICAL"
  else s!"Level {level}"

end Level

/-- One message to a logger. -/
structure Record where
  logger : String
  level : Level
  message : String
  deriving DecidableEq, Repr

/-- The logger that the loggers of all parts report to. -/
def packageLogger : String := "spreadsplit"

/-- The logger of a part. -/
def partLogger (part : String) : String := packageLogger ++ "." ++ part

/-- A record of a detail. -/
def debug (part message : String) : Record := ⟨partLogger part, .debug, message⟩

/-- A record of progress. -/
def info (part message : String) : Record := ⟨partLogger part, .info, message⟩

/-- A record of something to look at. -/
def warning (part message : String) : Record := ⟨partLogger part, .warning, message⟩

end Folio.Log
