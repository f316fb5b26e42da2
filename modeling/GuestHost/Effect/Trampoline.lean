import GuestHost.Effect.Escalation
import GuestHost.Import.Trampoline

/-!
Calls through the guest's function table.
-/

namespace GuestHost.Trampoline

open Wasm (Val)

variable {A : Type → Type}

def resolve (c : ContextIn A) (slot : Nat) : Run Nat := do
  match ← c.table? with
  | none => Run.fail (.badTableEntry slot "guest exports no function table")
  | some table =>
    match table[slot]? with
    | none => Run.fail (.badTableEntry slot "index out of range")
    | some none => Run.fail (.badTableEntry slot "slot is empty or not a function")
    | some (some func) => return func

variable [Monad A] [Watch A]

/-- Arguments are held against the target's type before it runs, the type of its results after. -/
def dispatchIn (t : Trampoline) (callee : CalleeIn A) (args : List Val) : RunIn A (List Val) := do
  if callee.type.params.length ≠ args.length then RunIn.plain (Run.fault .argumentCount)
  else if callee.type.results.length ≠ t.type.results.length then
    RunIn.plain (Run.fault .resultCount)
  else if callee.type.params ≠ args.map Val.type then RunIn.plain (Run.fault .argumentType)
  else
    let results ← callee.call args
    if callee.type.results ≠ t.type.results then RunIn.plain (Run.fault .resultType)
    else return results

def runIn (c : ContextIn A) (t : Trampoline) : List Val → RunIn A (List Val)
  | .i32 slot :: args => do
    let host ← RunIn.plain Run.host
    match host.config.indirectCalls with
    | .fatal => RunIn.plain (Run.unsupported t.name)
    | .resolve =>
      let func ← RunIn.plain (resolve c slot.toNat)
      RunIn.plain
        (Run.log .debug "embridge::trampoline" s!"{t.name}: calling table slot {slot.toNat}")
      match c.callee func with
      | some callee => t.dispatchIn callee args
      | none => RunIn.plain (Run.fault .malformed)
  | _ => RunIn.plain (Run.fault .malformed)

theorem runIn_of_not_slot (c : ContextIn A) (t : Trampoline) {args : List Val}
    (other : ¬ ∃ slot words, args = .i32 slot :: words) :
    t.runIn c args = RunIn.plain (Run.fault .malformed) := by
  unfold runIn
  split
  · exact absurd ⟨_, _, rfl⟩ other
  · rfl

def dispatch (t : Trampoline) (callee : Callee) (args : List Val) : Run (List Val) :=
  t.dispatchIn callee args

def run (c : Context) (t : Trampoline) (args : List Val) : Run (List Val) := t.runIn c args

theorem dispatch_eq (t : Trampoline) (callee : Callee) (args : List Val) :
    t.dispatch callee args = (do
      if callee.type.params.length ≠ args.length then Run.fault .argumentCount
      else if callee.type.results.length ≠ t.type.results.length then Run.fault .resultCount
      else if callee.type.params ≠ args.map Val.type then Run.fault .argumentType
      else
        let results ← callee.call args
        if callee.type.results ≠ t.type.results then Run.fault .resultType
        else return results) := rfl

theorem run_slot (c : Context) (t : Trampoline) (slot : BitVec 32) (args : List Val) :
    t.run c (.i32 slot :: args) = (do
      let host ← Run.host
      match host.config.indirectCalls with
      | .fatal => Run.unsupported t.name
      | .resolve =>
        let func ← resolve c slot.toNat
        Run.log .debug "embridge::trampoline" s!"{t.name}: calling table slot {slot.toNat}"
        match c.callee func with
        | some callee => t.dispatch callee args
        | none => Run.fault .malformed) := by
  refine congrArg (Bind.bind Run.host) (funext fun host => ?_)
  cases host.config.indirectCalls with
  | fatal => rfl
  | resolve =>
    refine congrArg (Bind.bind (resolve c slot.toNat)) (funext fun func => ?_)
    refine congrArg (Bind.bind (Run.log _ _ _)) (funext fun _ => ?_)
    cases c.callee func with
    | none => rfl
    | some callee => rfl

end GuestHost.Trampoline
