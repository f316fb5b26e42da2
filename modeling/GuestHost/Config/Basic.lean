/-!
Settings of one guest.
-/

namespace GuestHost

/-- What happens when a guest reaches a call that is not provided. -/
inductive FatalPolicy
  | exit
  | trap
  deriving DecidableEq, Repr, Inhabited

/-- What the indirect-call trampolines do. -/
inductive IndirectCalls
  | fatal
  | resolve
  deriving DecidableEq, Repr, Inhabited

structure Config where
  fatal : FatalPolicy := .exit
  indirectCalls : IndirectCalls := .fatal
  heapGrowth : Bool := false
  wasi : Bool := true
  captureOutput : Bool := false
  deriving DecidableEq, Repr, Inhabited

namespace Config

def default : Config := {}

def trapping : Config := { fatal := .trap }

inductive Field
  | fatal
  | indirectCalls
  | heapGrowth
  | wasi
  | captureOutput
  deriving DecidableEq, Repr

namespace Field

def all : List Field := [fatal, indirectCalls, heapGrowth, wasi, captureOutput]

def key : Field → String
  | fatal => "fatal"
  | indirectCalls => "indirect_calls"
  | heapGrowth => "heap_growth"
  | wasi => "wasi"
  | captureOutput => "capture_output"

def ofKey? (key : String) : Option Field := all.find? (·.key == key)

end Field

end Config

namespace FatalPolicy

def name : FatalPolicy → String
  | exit => "exit"
  | trap => "trap"

def ofName? (name : String) : Option FatalPolicy := [exit, trap].find? (·.name == name)

end FatalPolicy

namespace IndirectCalls

def name : IndirectCalls → String
  | fatal => "fatal"
  | resolve => "resolve"

def ofName? (name : String) : Option IndirectCalls := [fatal, resolve].find? (·.name == name)

end IndirectCalls

end GuestHost
