import GuestHost.Import.HostFunction
import GuestHost.Run

/-!
Watched runs. What guests and host functions do is written once, for any monad in which actions can
take place; such a monad may take notice of the calls that are made. The running programs take none.
-/

namespace GuestHost

open Wasm (Val Func)

/-- A call that notice is taken of: when it is entered where it goes on to other calls, and else with
the store it came upon and its result. -/
inductive Event
  | entered (func : Func) (args : List Val)
  | dispatched (t : Trampoline) (args : List Val)
  | served (f : HostFunction) (args : List Val) (before : Store) (result : Except Stop (List Val))

/-- `act` lets an action take place, with something to tell of its end. -/
class Watch (A : Type → Type) where
  act {α : Type} (told : α → List Event) (x : Action α) : A α

instance : Watch Action := ⟨fun _ x => x⟩

def Watch.lift {A : Type → Type} [Watch A] {α : Type} (x : Action α) : A α := act (fun _ => []) x

namespace RunIn

variable {A : Type → Type} {α : Type}

def startAt (x : RunIn A α) (s : Store) : A (Except Stop α × Store) := x.run.run s

variable [Watch A]

/-- A run of which something is told when it has ended, from the store that it began with. -/
def watch (x : Run α) (told : Store → Except Stop α → List Event) : RunIn A α :=
  ExceptT.mk fun s => Watch.act (fun p => told s p.1) (x.startAt s)

def plain (x : Run α) : RunIn A α := watch x fun _ _ => []

def note (e : Event) : RunIn A Unit := watch (pure ()) fun _ _ => [e]

end RunIn

end GuestHost
