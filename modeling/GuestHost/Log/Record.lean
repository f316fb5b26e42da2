/-!
Log records.
-/

namespace GuestHost.Log

inductive Level
  | error
  | warn
  | info
  | debug
  | trace
  deriving DecidableEq, Repr

namespace Level

def name : Level → String
  | error => "ERROR"
  | warn => "WARN"
  | info => "INFO"
  | debug => "DEBUG"
  | trace => "TRACE"

/-- Higher is more talkative. -/
def rank : Level → Nat
  | error => 1
  | warn => 2
  | info => 3
  | debug => 4
  | trace => 5

end Level

structure Record where
  level : Level
  target : String
  text : String
  deriving DecidableEq, Repr

def indented (text : String) : String := "\n    ".intercalate (text.splitOn "\n")

/-- The line of a record, with the level padded to five characters. A text of several lines goes on
in lines of its own. -/
def Record.line (r : Record) : String :=
  let pad := String.ofList (List.replicate (5 - r.level.name.length) ' ')
  s!"[{r.level.name}{pad} {r.target}] {indented r.text}\n"

end GuestHost.Log
