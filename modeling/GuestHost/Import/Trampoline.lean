import GuestHost.Wasm.Types

/-!
Trampolines. Each calls through a slot of the guest's function table; its name spells the result
and the arguments it hands on.
-/

namespace GuestHost

/-- Hands on `arity` words; the slot comes before them. -/
structure Trampoline where
  returns : Bool
  arity : Nat
  deriving DecidableEq, Repr

namespace Trampoline

def maxArity : Nat := 5

def all : List Trampoline :=
  [false, true].flatMap fun returns => (List.range (maxArity + 1)).map (Trampoline.mk returns)

def name (t : Trampoline) : String :=
  "invoke_" ++ String.ofList ((if t.returns then 'i' else 'v') :: List.replicate t.arity 'i')

def targetType (t : Trampoline) : Wasm.FuncType where
  params := List.replicate t.arity .i32
  results := if t.returns then [.i32] else []

def type (t : Trampoline) : Wasm.FuncType :=
  { t.targetType with params := .i32 :: t.targetType.params }

end Trampoline

end GuestHost
