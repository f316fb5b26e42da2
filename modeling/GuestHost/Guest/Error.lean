import GuestHost.Run

/-!
Why a guest could not be made or a call on it failed.
-/

namespace GuestHost

inductive Stage
  | load
  | link
  | imports
  | instantiate
  | setup
  | getFunc
  | args
  | call
  | results
  deriving DecidableEq, Repr

def Stage.name : Stage → String
  | load => "instantiate::load"
  | link => "instantiate::link"
  | imports => "instantiate::imports"
  | instantiate => "instantiate::instantiate"
  | setup => "instantiate::initialize"
  | getFunc => "call::get_func"
  | args => "call::args"
  | call => "call::call"
  | results => "call::results"

inductive Failure
  | stopped (stop : Stop)
  | exportNotFound (name : String)
  | argumentCount (name : String) (expected actual : Nat)
  | unsupportedParameter (type : Wasm.ValType)
  | unsupportedResult
  deriving DecidableEq, Repr

namespace Failure

def message : Failure → String
  | stopped (.host e) => e.message
  | stopped (.fault f) => f.message
  | exportNotFound name => s!"Export '{name}' not found"
  | argumentCount name expected actual => s!"'{name}' takes {expected} arguments, got {actual}"
  | unsupportedParameter type => s!"unsupported parameter type {type.name}"
  | unsupportedResult => "unsupported result type"

end Failure

structure GuestError where
  stage : Stage
  failure : Failure
  deriving DecidableEq, Repr

namespace GuestError

def bracketed (about message : String) : String := s!"[{about}] {message}"

def display (e : GuestError) : String := bracketed e.stage.name e.failure.message

/-- The error of a host function that is behind the failure, if one is. -/
def hostError? (e : GuestError) : Option HostError :=
  match e.failure with
  | .stopped (.host e) => some e
  | _ => none

end GuestError

end GuestHost
