import GuestHost.Effect.Primitive
import GuestHost.Effect.Syscall
import GuestHost.Effect.Trampoline
import GuestHost.Effect.Wasi

/-!
What each host function does. It depends on the caller only through the caller's exports.
-/

namespace GuestHost.HostFunction

open Wasm (Val)

/-- A trampoline goes on to another call, and so notice is taken of it when it is entered. -/
def runIn {A : Type → Type} [Monad A] [Watch A] (c : ContextIn A) (f : HostFunction)
    (args : List Val) : RunIn A (List Val) :=
  let serve (x : Run (List Val)) : RunIn A (List Val) :=
    RunIn.watch x fun s r => [.served f args s r]
  match f with
  | primitive p => serve (p.run c args)
  | trampoline t => do
    RunIn.note (.dispatched t args)
    t.runIn c args
  | syscall s => serve s.run
  | wasi w => serve (w.run c args)

def run (c : Context) (f : HostFunction) (args : List Val) : Run (List Val) := f.runIn c args

theorem run_eq (c : Context) (f : HostFunction) (args : List Val) :
    f.run c args = match f with
      | primitive p => p.run c args
      | trampoline t => t.run c args
      | syscall s => s.run
      | wasi w => w.run c args := by
  cases f <;> rfl

end GuestHost.HostFunction
