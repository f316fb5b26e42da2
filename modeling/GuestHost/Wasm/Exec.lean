import GuestHost.Watch

/-!
Executing code of the guest. Calls go to the functions it is given.
-/

namespace GuestHost.Wasm

variable {A : Type → Type} [Monad A] [Watch A] {α : Type}

def callFrom (callee : Nat → Option (CalleeIn A)) (func : Nat) (args : List Val) :
    RunIn A (List Val) :=
  match callee func with
  | none => RunIn.plain (Run.fault .malformed)
  | some c =>
    if args.map Val.type = c.type.params then c.call args
    else RunIn.plain (Run.fault .malformed)

def Body.exec (callee : Nat → Option (CalleeIn A)) : Body α → RunIn A α
  | done a => return a
  | fault f _ => RunIn.plain (Run.fault f)
  | look next => do
    let space ← RunIn.plain Run.space
    (next space).exec callee
  | put space next => do
    RunIn.plain (Run.setSpace space)
    next.exec callee
  | call func args next => do
    let results ← callFrom callee func args
    (next results).exec callee

/-- The results have the types that the function says. -/
def Func.checked (fn : Func) (results : List Val) : RunIn A (List Val) :=
  if results.map Val.type = fn.type.results then return results
  else RunIn.plain (Run.fault .malformed)

def Func.exec (callee : Nat → Option (CalleeIn A)) (fn : Func) (args : List Val) :
    RunIn A (List Val) := do
  RunIn.note (.entered fn args)
  let results ← (fn.body args).exec callee
  fn.checked results

end GuestHost.Wasm
