import GuestHost.Effect.Escalation
import GuestHost.Import.HostFunction

/-!
What the primitives of the guest's runtime do: growth notices, the staging register, heap growth,
abort and bulk copy.
-/

namespace GuestHost.Primitive

open Wasm (Val)

variable {A : Type → Type}

def target : String := "embridge::runtime_support"

def notifyGrowth (notice : BitVec 32) : Run Unit := do
  Run.log .info target
    s!"Called into emscripten_notify_memory_growth with argument {notice.toInt}"
  Run.modifyHost (·.recordGrowth notice)

def missingPages (m : LinearMemory) (requested : Nat) : Nat :=
  (requested - m.size + pageSize - 1) / pageSize

/-- `requested` is the whole size in bytes that the guest wants. The answer is 1 once the memory
covers it and 0 when it may not grow so far. -/
def resize (c : ContextIn A) (requested : BitVec 32) : Run (BitVec 32) := do
  let host ← Run.host
  if !host.config.heapGrowth then
    Run.unsupported "emscripten_resize_heap"
  else
    let m ← c.memory
    if requested.toNat ≤ m.size then return 1
    else
      let delta := missingPages m requested.toNat
      match m.grow delta with
      | some grown =>
        Run.setMemory grown
        Run.log .debug target
          s!"emscripten_resize_heap: grew from {m.pages} to {m.pages + delta} pages"
        return 1
      | none =>
        Run.log .warn target
          s!"emscripten_resize_heap: cannot grow by {delta} pages: failed to grow memory by `{delta}`"
        return 0

def copy (c : ContextIn A) (dest src length : BitVec 32) : Run Unit := do
  let m ← c.memory
  let m ← Run.ofExcept (m.edit (·.copyWithin dest.toNat src.toNat length.toNat))
  Run.setMemory m

def run (c : ContextIn A) (p : Primitive) (args : List Val) : Run (List Val) :=
  match p with
  | notifyMemoryGrowth => match args with
    | [.i32 notice] => do
      notifyGrowth notice
      return []
    | _ => Run.fault .malformed
  | setTempRet0 => match args with
    | [.i32 value] => do
      Run.modifyHost fun h => { h with staging := ⟨value⟩ }
      return []
    | _ => Run.fault .malformed
  | getTempRet0 => match args with
    | [] => do
      let host ← Run.host
      return [.i32 host.staging.value]
    | _ => Run.fault .malformed
  | resizeHeap => match args with
    | [.i32 requested] => do
      let answer ← resize c requested
      return [.i32 answer]
    | _ => Run.fault .malformed
  | abort => match args with
    | [] => Run.fatal (.aborted "abort")
    | _ => Run.fault .malformed
  | throwLongjmp => match args with
    | [] => Run.unsupported "_emscripten_throw_longjmp"
    | _ => Run.fault .malformed
  | memcpyBig => match args with
    | [.i32 dest, .i32 src, .i32 length] => do
      copy c dest src length
      return []
    | _ => Run.fault .malformed

end GuestHost.Primitive
