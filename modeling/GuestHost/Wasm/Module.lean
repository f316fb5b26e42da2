import GuestHost.Wasm.Body

/-!
Modules: what a guest imports, defines and exports. Function indices count the imported functions
first.
-/

namespace GuestHost.Wasm

inductive ExternKind
  | func
  | memory
  | table
  | global
  deriving DecidableEq, Repr

inductive ImportDesc
  | func (type : FuncType)
  | memory
  | table
  | global
  deriving DecidableEq, Repr

structure Import where
  ns : String
  name : String
  desc : ImportDesc
  deriving DecidableEq, Repr

structure Func where
  type : FuncType
  body : List Val → Body (List Val)

structure Limits where
  min : Nat
  max : Option Nat := none
  deriving DecidableEq, Repr

structure Export where
  name : String
  kind : ExternKind
  index : Nat
  deriving DecidableEq, Repr

structure ElemSegment where
  offset : Nat
  funcs : List (Option Nat)
  deriving DecidableEq, Repr

structure DataSegment where
  offset : Nat
  bytes : List UInt8
  deriving DecidableEq, Repr

/-- A module as the machine has loaded it. `globals` are the values that its variables begin with,
`maxDepth` is how many calls the machine lets be open below one that it was asked for. -/
structure Module where
  imports : List Import := []
  funcs : List Func := []
  memory : Option Limits := none
  table : Option Limits := none
  globals : List Val := []
  exports : List Export := []
  elems : List ElemSegment := []
  data : List DataSegment := []
  start : Option Nat := none
  maxDepth : Nat

namespace Func

/-- A function that hands its parameters on to the function at `index` of the same type. -/
def forward (type : FuncType) (index : Nat) : Func := ⟨type, Body.callFunc index⟩

end Func

namespace Module

def importedFuncs (m : Module) : List FuncType :=
  m.imports.filterMap fun i => match i.desc with
    | .func type => some type
    | _ => none

def funcTypes (m : Module) : List FuncType := m.importedFuncs ++ m.funcs.map (·.type)

def countImports (m : Module) (kind : ExternKind) : Nat :=
  m.imports.countP fun i => match i.desc, kind with
    | .func _, .func | .memory, .memory | .table, .table | .global, .global => true
    | _, _ => false

def memoryCount (m : Module) : Nat := m.countImports .memory + m.memory.toList.length

def tableCount (m : Module) : Nat := m.countImports .table + m.table.toList.length

def globalCount (m : Module) : Nat := m.countImports .global + m.globals.length

def opening (m : Module) : Body Unit := do
  m.elems.forM fun s => Body.writeSlots s.offset s.funcs
  m.data.forM fun s => Body.write s.offset s.bytes
  match m.start with
  | none => return ()
  | some func => do
    let _ ← Body.callFunc func []
    return ()

end Module

end GuestHost.Wasm
