import GuestHost.Wasm.Instr

/-!
Which bodies are well formed: every index names something, and every instruction finds operands of
its types.
-/

namespace GuestHost.Wasm

/-- Types of the operands on the stack, top first. Code behind a jump is never reached, and there
the stack is `loose`: below the known operands it holds whatever is wanted. -/
structure Operands where
  known : List ValType := []
  loose : Bool := false
  deriving DecidableEq, Repr

namespace Operands

def push (o : Operands) (ts : List ValType) : Operands := { o with known := ts.reverse ++ o.known }

def pop? (o : Operands) (t : ValType) : Option Operands :=
  match o.known with
  | u :: us => if t = u then some { o with known := us } else none
  | [] => if o.loose then some o else none

def popAny? (o : Operands) : Option (Option ValType × Operands) :=
  match o.known with
  | t :: us => some (some t, { o with known := us })
  | [] => if o.loose then some (none, o) else none

def popAll? (o : Operands) (ts : List ValType) : Option Operands :=
  ts.reverse.foldlM pop? o

def unreached : Operands := { loose := true }

def isExactly (o : Operands) (ts : List ValType) : Bool :=
  match o.popAll? ts with
  | some o => o.known.isEmpty
  | none => false

end Operands

/-- What a body may refer to. A label takes the operands of its types. Functions are `referred` to
where they may be made references of. -/
structure Scope where
  funcs : List FuncType
  globals : List GlobalType
  hasMemory : Bool
  hasTable : Bool
  elems : Nat
  data : Nat
  referred : List Nat
  locals : List ValType
  results : List ValType
  labels : List (List ValType)
  deriving DecidableEq, Repr

namespace MemArg

def isValid (arg : MemArg) (bytes : Nat) : Bool :=
  arg.align ≤ 3 && Nat.pow 2 arg.align ≤ bytes && arg.offset < Nat.pow 2 32

end MemArg

namespace Op

def isKnown (s : Scope) : Op → Bool
  | load _ bytes _ arg | store _ bytes arg => s.hasMemory && arg.isValid bytes
  | loadFloat w arg | storeFloat w arg => s.hasMemory && arg.isValid (w.bits / 8)
  | memorySize | memoryGrow | memoryFill | memoryCopy => s.hasMemory
  | memoryInit segment => s.hasMemory && segment < s.data
  | dataDrop segment => segment < s.data
  | tableGet | tableSet | tableSize | tableGrow | tableFill | tableCopy => s.hasTable
  | tableInit segment => s.hasTable && segment < s.elems
  | elemDrop segment => segment < s.elems
  | globalSet i => (s.globals[i]?.map (·.isMutable)).getD false
  | refFunc func => s.referred.contains func
  | _ => true

def type? (s : Scope) : Op → Option FuncType
  | nop | dataDrop _ | elemDrop _ => some ⟨[], []⟩
  | localGet i => s.locals[i]?.map fun t => ⟨[], [t]⟩
  | localSet i => s.locals[i]?.map fun t => ⟨[t], []⟩
  | localTee i => s.locals[i]?.map fun t => ⟨[t], [t]⟩
  | globalGet i => s.globals[i]?.map fun g => ⟨[], [g.type]⟩
  | globalSet i => s.globals[i]?.map fun g => ⟨[g.type], []⟩
  | const v => some ⟨[], [v.type]⟩
  | intUn w _ => some ⟨[w.int], [w.int]⟩
  | intBin w _ => some ⟨[w.int, w.int], [w.int]⟩
  | intRel w _ => some ⟨[w.int, w.int], [.i32]⟩
  | eqz w => some ⟨[w.int], [.i32]⟩
  | floatUn w _ => some ⟨[w.float], [w.float]⟩
  | floatBin w _ => some ⟨[w.float, w.float], [w.float]⟩
  | floatRel w _ => some ⟨[w.float, w.float], [.i32]⟩
  | convert c => some ⟨[c.source], [c.target]⟩
  | load w _ _ _ => some ⟨[.i32], [w.int]⟩
  | store w _ _ => some ⟨[.i32, w.int], []⟩
  | loadFloat w _ => some ⟨[.i32], [w.float]⟩
  | storeFloat w _ => some ⟨[.i32, w.float], []⟩
  | memorySize | tableSize => some ⟨[], [.i32]⟩
  | memoryGrow => some ⟨[.i32], [.i32]⟩
  | memoryFill | memoryCopy | memoryInit _ | tableCopy | tableInit _ =>
    some ⟨[.i32, .i32, .i32], []⟩
  | tableGet => some ⟨[.i32], [.funcref]⟩
  | tableSet => some ⟨[.i32, .funcref], []⟩
  | tableGrow => some ⟨[.funcref, .i32], [.i32]⟩
  | tableFill => some ⟨[.i32, .funcref, .i32], []⟩
  | refNull | refFunc _ => some ⟨[], [.funcref]⟩
  | refIsNull => some ⟨[.funcref], [.i32]⟩
  | unreachable | drop | select _ => none

/-- Two operands of one type, of which one is left. Without a type that is said it is a type of
numbers. -/
def select? (type : Option ValType) (o : Operands) : Option Operands := do
  let o ← o.pop? .i32
  match type with
  | some t => return (← o.popAll? [t, t]).push [t]
  | none =>
    let (a, o) ← o.popAny?
    let (b, o) ← o.popAny?
    match a.or b with
    | none => return o
    | some t => if t ≠ .funcref ∧ b.getD t = t then return o.push [t] else none

def check (s : Scope) (op : Op) (o : Operands) : Option Operands :=
  if !op.isKnown s then none
  else match op with
    | unreachable => some .unreached
    | drop => o.popAny?.map (·.2)
    | select type => select? type o
    | op => do
      let t ← op.type? s
      let o ← o.popAll? t.params
      return o.push t.results

end Op

mutual

def Instr.check (s : Scope) : Instr → Operands → Option Operands
  | .op op, o => op.check s o
  | .block t body, o => do
    let o ← o.popAll? t.params
    let inner ← checkAll { s with labels := t.results :: s.labels } body (Operands.push {} t.params)
    if inner.isExactly t.results then return o.push t.results else none
  | .loop t body, o => do
    let o ← o.popAll? t.params
    let inner ← checkAll { s with labels := t.params :: s.labels } body (Operands.push {} t.params)
    if inner.isExactly t.results then return o.push t.results else none
  | .cond t thn els, o => do
    let o ← (← o.pop? .i32).popAll? t.params
    let scope := { s with labels := t.results :: s.labels }
    let a ← checkAll scope thn (Operands.push {} t.params)
    let b ← checkAll scope els (Operands.push {} t.params)
    if a.isExactly t.results && b.isExactly t.results then return o.push t.results else none
  | .br label, o => do
    let _ ← o.popAll? (← s.labels[label]?)
    return .unreached
  | .brIf label, o => do
    let ts ← s.labels[label]?
    let o ← (← o.pop? .i32).popAll? ts
    return o.push ts
  | .brTable labels otherwise, o => do
    let o ← o.pop? .i32
    let arity := (← s.labels[otherwise]?).length
    (otherwise :: labels).forM fun label => do
      let ts ← s.labels[label]?
      let _ ← o.popAll? ts
      guard (ts.length = arity)
    return .unreached
  | .ret, o => do
    let _ ← o.popAll? s.results
    return .unreached
  | .call func, o => do
    let t ← s.funcs[func]?
    let o ← o.popAll? t.params
    return o.push t.results
  | .callIndirect t, o => do
    guard s.hasTable
    let o ← (← o.pop? .i32).popAll? t.params
    return o.push t.results
  termination_by structural i => i

def checkAll (s : Scope) : List Instr → Operands → Option Operands
  | [], o => some o
  | i :: is, o => do
    let o ← i.check s o
    checkAll s is o
  termination_by structural is => is

end

namespace Source

def referred (s : Source) : List Nat :=
  s.elems.flatMap (·.2.filterMap id) ++
    (s.exports.filter (·.kind = .func)).map (·.index) ++
    s.globals.filterMap fun g => match g.2 with
      | .funcref func => func
      | _ => none

def scope (s : Source) (f : SourceFunc) : Scope where
  funcs := s.funcTypes
  globals := s.importedGlobals ++ s.globals.map (·.1)
  hasMemory := s.memory.isSome || s.imports.any (·.desc = .memory)
  hasTable := s.table.isSome || s.imports.any (·.desc = .table)
  elems := s.elems.length
  data := s.dataCount
  referred := s.referred
  locals := f.type.params ++ f.locals
  results := f.type.results
  labels := [f.type.results]

def funcIsValid (s : Source) (f : SourceFunc) : Bool :=
  match checkAll (s.scope f) f.body {} with
  | some o => o.isExactly f.type.results
  | none => false

def isValid (s : Source) : Bool :=
  s.funcs.all s.funcIsValid &&
  s.globals.all (fun g => g.2.type = g.1.type) &&
  s.exports.all (fun e =>
    e.kind ≠ .global || e.index < s.importedGlobals.length + s.globals.length) &&
  s.referred.all (· < s.funcTypes.length)

end Source

end GuestHost.Wasm
