import GuestHost.Wasm.Typing
import GuestHost.Wasm.Validation

/-!
From modules as they are written to modules as the machine has loaded them. A body becomes the tree
of all that it can come to do, and a loop is unrolled as often as the machine lets it go round.
-/

namespace GuestHost.Wasm

/-- How far the machine lets a guest go: calls that are open at a time below one that it was asked
for, and rounds of a loop. -/
structure Engine where
  maxDepth : Nat
  maxRounds : Nat
  deriving DecidableEq, Repr

/-- What the code of a module refers to. Of its own variables the first are those that it was written
with; behind them stands one for each element segment and then one for each data segment, and that is
other than zero once the segment was dropped. `tableLimit` is how many slots the table can get. -/
structure Env where
  engine : Engine
  funcs : List FuncType
  importedGlobals : Nat
  globals : Nat
  elems : List (List (Option Nat))
  data : List (List UInt8)
  tableLimit : Nat

namespace Env

def global? (e : Env) (index : Nat) : Option Nat :=
  if e.importedGlobals ≤ index then some (index - e.importedGlobals) else none

def elemFlag (e : Env) (segment : Nat) : Nat := e.globals + segment

def dataFlag (e : Env) (segment : Nat) : Nat := e.globals + e.elems.length + segment

end Env

structure Frame where
  locals : Array Val
  stack : List Val := []
  deriving DecidableEq, Repr

/-- How a piece of code ends: it falls through, it leaves for a label, or it returns from its
function. -/
inductive Flow
  | next (f : Frame)
  | br (label : Nat) (f : Frame)
  | ret (f : Frame)
  deriving DecidableEq, Repr

namespace Frame

def push (f : Frame) (v : Val) : Frame := { f with stack := v :: f.stack }

def pop (f : Frame) : Body (Val × Frame) :=
  match f.stack with
  | v :: vs => return (v, { f with stack := vs })
  | [] => .malformed

def popInt (f : Frame) (w : Width) : Body (BitVec w.bits × Frame) := do
  let (v, f) ← f.pop
  match v.int? w with
  | some x => return (x, f)
  | none => .malformed

def popFloat (f : Frame) (w : Width) : Body (BitVec w.bits × Frame) := do
  let (v, f) ← f.pop
  match v.float? w with
  | some x => return (x, f)
  | none => .malformed

def popRef (f : Frame) : Body (Option Nat × Frame) := do
  match ← f.pop with
  | (.funcref func, f) => return (func, f)
  | _ => .malformed

def popNat (f : Frame) : Body (Nat × Frame) := do
  let (x, f) ← f.popInt .w32
  return (x.toNat, f)

def popNats (f : Frame) : Body (Nat × Nat × Nat × Frame) := do
  let (c, f) ← f.popNat
  let (b, f) ← f.popNat
  let (a, f) ← f.popNat
  return (a, b, c, f)

def popAll (f : Frame) (n : Nat) : Body (List Val × Frame) :=
  if n ≤ f.stack.length then
    return ((f.stack.take n).reverse, { f with stack := f.stack.drop n })
  else .malformed

end Frame

namespace Op

def getGlobal (index : Nat) : Body Val := do
  match (← Body.space).globals[index]? with
  | some v => return v
  | none => .malformed

def setGlobal (index : Nat) (v : Val) : Body Unit := do
  let space ← Body.space
  Body.setSpace { space with globals := space.globals.set index v }

def segment {α : Type} (all : List (List α)) (index flag : Nat) : Body (List α) := do
  match all[index]?, ← getGlobal flag with
  | some items, .i32 0 => return items
  | some _, _ => return []
  | none, _ => .malformed

def part {α : Type} (items : List α) (src n : Nat) (f : Fault) (running : f.isLinking = false) :
    Body (List α) :=
  if src + n ≤ items.length then return (items.drop src).take n else .fault f running

def growMemory (delta : Nat) : Body (BitVec 32) := do
  let m ← Body.memory
  match m.grow delta with
  | some grown => do
    Body.setMemory grown
    return BitVec.ofNat 32 m.pages
  | none => return BitVec.allOnes 32

def readSlots (offset n : Nat) : Body (List (Option Nat)) := do
  part (← Body.table).toList offset n .tableBounds rfl

def growTable (limit : Nat) (func : Option Nat) (delta : Nat) : Body (BitVec 32) := do
  let slots ← Body.table
  if slots.size + delta ≤ limit then do
    Body.setTable (slots ++ Array.replicate delta func)
    return BitVec.ofNat 32 slots.size
  else return BitVec.allOnes 32

def run (e : Env) (op : Op) (f : Frame) : Body Frame :=
  match op with
  | unreachable => .trap .unreachable
  | nop => return f
  | drop => do
    let (_, f) ← f.pop
    return f
  | select _ => do
    let (which, f) ← f.popNat
    let (b, f) ← f.pop
    let (a, f) ← f.pop
    return f.push (if which = 0 then b else a)
  | localGet i =>
    match f.locals[i]? with
    | some v => return f.push v
    | none => .malformed
  | localSet i => do
    let (v, f) ← f.pop
    return { f with locals := f.locals.setIfInBounds i v }
  | localTee i => do
    let (v, f) ← f.pop
    return ⟨f.locals.setIfInBounds i v, v :: f.stack⟩
  | globalGet i =>
    match e.global? i with
    | some own => do return f.push (← getGlobal own)
    | none => .malformed
  | globalSet i =>
    match e.global? i with
    | some own => do
      let (v, f) ← f.pop
      setGlobal own v
      return f
    | none => .malformed
  | const v => return f.push v
  | intUn w op => do
    let (x, f) ← f.popInt w
    return f.push (.ofInt w (op.eval x))
  | intBin w op => do
    let (y, f) ← f.popInt w
    let (x, f) ← f.popInt w
    return f.push (.ofInt w (← op.eval x y))
  | intRel w op => do
    let (y, f) ← f.popInt w
    let (x, f) ← f.popInt w
    return f.push (.ofBool (op.eval x y))
  | eqz w => do
    let (x, f) ← f.popInt w
    return f.push (.ofBool (x == 0))
  | floatUn w op => do
    let (x, f) ← f.popFloat w
    return f.push (.ofFloat w (op.eval w x))
  | floatBin w op => do
    let (y, f) ← f.popFloat w
    let (x, f) ← f.popFloat w
    return f.push (.ofFloat w (op.eval w x y))
  | floatRel w op => do
    let (y, f) ← f.popFloat w
    let (x, f) ← f.popFloat w
    return f.push (.ofBool (op.eval w x y))
  | convert c => do
    let (v, f) ← f.pop
    return f.push (← c.eval v)
  | load w bytes signed arg => do
    let (address, f) ← f.popNat
    let x : BitVec (8 * bytes) := Word.ofBytes _ (← Body.read (address + arg.offset) bytes)
    return f.push (.ofInt w (if signed then x.signExtend w.bits else x.setWidth w.bits))
  | store w bytes arg => do
    let (x, f) ← f.popInt w
    let (address, f) ← f.popNat
    Body.write (address + arg.offset) (Word.bytes x bytes)
    return f
  | loadFloat w arg => do
    let (address, f) ← f.popNat
    let bytes ← Body.read (address + arg.offset) (w.bits / 8)
    return f.push (.ofFloat w (Word.ofBytes w.bits bytes))
  | storeFloat w arg => do
    let (x, f) ← f.popFloat w
    let (address, f) ← f.popNat
    Body.write (address + arg.offset) (Word.bytes x (w.bits / 8))
    return f
  | memorySize => do return f.push (.i32 (BitVec.ofNat 32 (← Body.memory).pages))
  | memoryGrow => do
    let (delta, f) ← f.popNat
    return f.push (.i32 (← growMemory delta))
  | memoryFill => do
    let (dest, byte, n, f) ← f.popNats
    Body.fill dest n byte.toUInt8
    return f
  | memoryCopy => do
    let (dest, src, n, f) ← f.popNats
    Body.write dest (← Body.read src n)
    return f
  | memoryInit i => do
    let (dest, src, n, f) ← f.popNats
    let bytes ← segment e.data i (e.dataFlag i)
    Body.write dest (← part bytes src n .memoryBounds rfl)
    return f
  | dataDrop i => do
    setGlobal (e.dataFlag i) (.i32 1)
    return f
  | tableGet => do
    let (i, f) ← f.popNat
    match (← Body.table)[i]? with
    | some func => return f.push (.funcref func)
    | none => .trap .tableBounds
  | tableSet => do
    let (func, f) ← f.popRef
    let (i, f) ← f.popNat
    Body.writeSlots i [func]
    return f
  | tableSize => do return f.push (.i32 (BitVec.ofNat 32 (← Body.table).size))
  | tableGrow => do
    let (delta, f) ← f.popNat
    let (func, f) ← f.popRef
    return f.push (.i32 (← growTable e.tableLimit func delta))
  | tableFill => do
    let (n, f) ← f.popNat
    let (func, f) ← f.popRef
    let (i, f) ← f.popNat
    let _ ← readSlots i n
    Body.writeSlots i (List.replicate n func)
    return f
  | tableCopy => do
    let (dest, src, n, f) ← f.popNats
    Body.writeSlots dest (← readSlots src n)
    return f
  | tableInit i => do
    let (dest, src, n, f) ← f.popNats
    let funcs ← segment e.elems i (e.elemFlag i)
    Body.writeSlots dest (← part funcs src n .tableBounds rfl)
    return f
  | elemDrop i => do
    setGlobal (e.elemFlag i) (.i32 1)
    return f
  | refNull => return f.push (.funcref none)
  | refIsNull => do
    let (func, f) ← f.popRef
    return f.push (.ofBool func.isNone)
  | refFunc func => return f.push (.funcref (some func))

end Op

namespace Flow

/-- Out of a block that leaves `arity` operands above those that lay below it. -/
def leave (arity : Nat) (below : List Val) : Flow → Flow
  | next f => next { f with stack := f.stack ++ below }
  | br 0 f => next { f with stack := f.stack.take arity ++ below }
  | br (label + 1) f => br label f
  | ret f => ret f

end Flow

/-- Go round as long as the code leaves for the loop's own label, with `arity` operands. -/
def repeatBody (arity : Nat) (code : Frame → Body Flow) : Nat → Frame → Body Flow
  | 0, _ => .trap .roundsExhausted
  | rounds + 1, f => do
    match ← code f with
    | .br 0 f => repeatBody arity code rounds { f with stack := f.stack.take arity }
    | flow => return flow

def callFrame (type : FuncType) (func : Nat) (f : Frame) : Body Flow := do
  let (args, f) ← f.popAll type.params.length
  let results ← Body.callFunc func args
  return .next { f with stack := results.reverse ++ f.stack }

def callSlot (e : Env) (type : FuncType) (f : Frame) : Body Flow := do
  let (slot, f) ← f.popNat
  match (← Body.table)[slot]? with
  | none => .trap .tableBounds
  | some none => .trap .nullElement
  | some (some func) =>
    if e.funcs[func]? = some type then callFrame type func f else .trap .signature

mutual

def Instr.run (e : Env) : Instr → Frame → Body Flow
  | .op op, f => do return .next (← op.run e f)
  | .block type body, f => do
    let (args, f) ← f.popAll type.params.length
    let flow ← runAll e body { f with stack := args.reverse }
    return flow.leave type.results.length f.stack
  | .loop type body, f => do
    let (args, f) ← f.popAll type.params.length
    let flow ← repeatBody type.params.length (fun f => runAll e body f) e.engine.maxRounds
      { f with stack := args.reverse }
    return flow.leave type.results.length f.stack
  | .cond type thn els, f => do
    let (which, f) ← f.popNat
    let (args, f) ← f.popAll type.params.length
    let inner := { f with stack := args.reverse }
    let flow ← if which = 0 then runAll e els inner else runAll e thn inner
    return flow.leave type.results.length f.stack
  | .br label, f => return .br label f
  | .brIf label, f => do
    let (which, f) ← f.popNat
    return if which = 0 then .next f else .br label f
  | .brTable labels otherwise, f => do
    let (which, f) ← f.popNat
    return .br (labels.getD which otherwise) f
  | .ret, f => return .ret f
  | .call func, f =>
    match e.funcs[func]? with
    | some type => callFrame type func f
    | none => .malformed
  | .callIndirect type, f => callSlot e type f
  termination_by structural i => i

def runAll (e : Env) : List Instr → Frame → Body Flow
  | [], f => return .next f
  | i :: is, f => do
    match ← i.run e f with
    | .next f => runAll e is f
    | flow => return flow
  termination_by structural is => is

end

def SourceFunc.compile (e : Env) (fn : SourceFunc) : Func where
  type := fn.type
  body args := do
    let flow ← runAll e fn.body ⟨(args ++ fn.locals.map Val.zero).toArray, []⟩
    match flow with
    | .next f | .br _ f | .ret f => do
      let (results, _) ← f.popAll fn.type.results.length
      return results

namespace Source

def tableLimit (s : Source) : Nat :=
  match s.table with
  | some l => min (l.max.getD Module.maxSlots) Module.maxSlots
  | none => 0

def env (engine : Engine) (s : Source) : Env where
  engine := engine
  funcs := s.funcTypes
  importedGlobals := s.importedGlobals.length
  globals := s.globals.length
  elems := s.elems.map (·.2)
  data := s.data.map (·.2)
  tableLimit := s.tableLimit

/-- A segment that is placed when the guest is made is dropped then, and one that is only declared is
dropped from the beginning. -/
def dropped (p : Placement) : Val :=
  match p with
  | .passive => .i32 0
  | .active _ | .declared => .i32 1

def placed {α : Type} (segments : List (Placement × α)) : List (Nat × α) :=
  segments.filterMap fun segment => match segment with
    | (.active offset, items) => some (offset, items)
    | _ => none

def compile? (engine : Engine) (s : Source) : Option Module :=
  if !s.isValid then none
  else some {
    imports := s.imports
    funcs := s.funcs.map (·.compile (s.env engine))
    memory := s.memory
    table := s.table
    globals := s.globals.map (·.2) ++ s.elems.map (dropped ·.1) ++ s.data.map (dropped ·.1)
    exports := s.exports
    elems := (placed s.elems).map fun (offset, funcs) => ⟨offset, funcs⟩
    data := (placed s.data).map fun (offset, bytes) => ⟨offset, bytes⟩
    start := s.start
    maxDepth := engine.maxDepth }

end Source

end GuestHost.Wasm
