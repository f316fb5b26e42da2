import GuestHost.Effect.Escalation
import GuestHost.Import.Syscall

/-!
System calls: the process id is answered, and every other call is fatal under its canonical name.
-/

namespace GuestHost.Syscall

open Wasm (Val)

def run : Syscall → Run (List Val)
  | getpid => do
    let pid ← Run.ask .pid
    return [.i32 pid]
  | s => Run.unsupported s.name

end GuestHost.Syscall
