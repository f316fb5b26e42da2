/-!
Failures of the guest machine itself, by class.
-/

namespace GuestHost.Wasm

inductive Fault
  | malformed
  | unknownImport
  | incompatibleImport
  | argumentCount
  | argumentType
  | resultCount
  | resultType
  | unreachable
  | memoryBounds
  | divideByZero
  | integerOverflow
  | badConversion
  | tableBounds
  | nullElement
  | signature
  | stackExhausted
  | roundsExhausted
  deriving DecidableEq, Repr

namespace Fault

def message : Fault → String
  | malformed => "malformed module"
  | unknownImport => "unknown import"
  | incompatibleImport => "incompatible import type"
  | argumentCount => "argument count mismatch"
  | argumentType => "argument type mismatch"
  | resultCount => "result count mismatch"
  | resultType => "result type mismatch"
  | unreachable => "wasm trap: wasm `unreachable` instruction executed"
  | memoryBounds => "wasm trap: out of bounds memory access"
  | divideByZero => "wasm trap: integer divide by zero"
  | integerOverflow => "wasm trap: integer overflow"
  | badConversion => "wasm trap: invalid conversion to integer"
  | tableBounds => "wasm trap: undefined element: out of bounds table access"
  | nullElement => "wasm trap: uninitialized element"
  | signature => "wasm trap: indirect call type mismatch"
  | stackExhausted => "wasm trap: call stack exhausted"
  | roundsExhausted => "wasm trap: interrupt"

/-- Those that keep a module from being linked. Running code has none of them. -/
def isLinking : Fault → Bool
  | unknownImport | incompatibleImport => true
  | _ => false

end Fault

end GuestHost.Wasm
