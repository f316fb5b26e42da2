import GuestHost.Wasm.Module

/-!
Which modules are well formed beyond their code: every index names something, and sizes are within
limits.
-/

namespace GuestHost.Wasm

namespace Limits

def isWithin (l : Limits) (bound : Nat) : Bool :=
  let max := l.max.getD bound
  l.min ≤ max && max ≤ bound

end Limits

namespace Module

def count (m : Module) : ExternKind → Nat
  | .func => m.funcTypes.length
  | .memory => m.memoryCount
  | .table => m.tableCount
  | .global => m.globalCount

def elemsAreValid (m : Module) : Bool :=
  m.elems.all fun s => 0 < m.tableCount && s.funcs.all fun
    | some func => func < m.funcTypes.length
    | none => true

def startIsValid (m : Module) : Bool :=
  match m.start with
  | none => true
  | some func => m.funcTypes[func]? = some ⟨[], []⟩

def namesAreDistinct : List Export → Bool
  | [] => true
  | e :: es => es.all (·.name ≠ e.name) && namesAreDistinct es

def maxSlots : Nat := 10000000

def isValid (m : Module) : Bool :=
  m.memory.all (·.isWithin 65536) &&
  m.table.all (fun l => l.isWithin (Nat.pow 2 32 - 1) && l.min ≤ maxSlots) &&
  m.exports.all (fun e => e.index < m.count e.kind) &&
  namesAreDistinct m.exports &&
  m.elemsAreValid &&
  (m.data.isEmpty || 0 < m.memoryCount) &&
  m.startIsValid

end Module

end GuestHost.Wasm
