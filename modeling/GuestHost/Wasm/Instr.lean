import GuestHost.Wasm.Module
import GuestHost.Wasm.Number

/-!
Instructions, and modules as they are written. Blocks hold their code, and stand with the operands
that they take and leave.
-/

namespace GuestHost.Wasm

/-- Where memory is accessed, beyond the address on the stack. The alignment is only a hint; it is
the exponent of a power of two. -/
structure MemArg where
  align : Nat
  offset : Nat
  deriving DecidableEq, Repr

inductive Op
  | unreachable
  | nop
  | drop
  | select (type : Option ValType)
  | localGet (index : Nat)
  | localSet (index : Nat)
  | localTee (index : Nat)
  | globalGet (index : Nat)
  | globalSet (index : Nat)
  | const (v : Val)
  | intUn (w : Width) (op : IntUn)
  | intBin (w : Width) (op : IntBin)
  | intRel (w : Width) (op : IntRel)
  | eqz (w : Width)
  | floatUn (w : Width) (op : FloatUn)
  | floatBin (w : Width) (op : FloatBin)
  | floatRel (w : Width) (op : FloatRel)
  | convert (c : Conversion)
  | load (w : Width) (bytes : Nat) (signed : Bool) (arg : MemArg)
  | store (w : Width) (bytes : Nat) (arg : MemArg)
  | loadFloat (w : Width) (arg : MemArg)
  | storeFloat (w : Width) (arg : MemArg)
  | memorySize
  | memoryGrow
  | memoryFill
  | memoryCopy
  | memoryInit (segment : Nat)
  | dataDrop (segment : Nat)
  | tableGet
  | tableSet
  | tableSize
  | tableGrow
  | tableFill
  | tableCopy
  | tableInit (segment : Nat)
  | elemDrop (segment : Nat)
  | refNull
  | refIsNull
  | refFunc (func : Nat)
  deriving DecidableEq, Repr

inductive Instr
  | op (op : Op)
  | block (type : FuncType) (body : List Instr)
  | loop (type : FuncType) (body : List Instr)
  | cond (type : FuncType) (thn els : List Instr)
  | br (label : Nat)
  | brIf (label : Nat)
  | brTable (labels : List Nat) (otherwise : Nat)
  | ret
  | call (func : Nat)
  | callIndirect (type : FuncType)
  deriving Repr

/-- `locals` are the variables beyond the parameters; indices count the parameters first. -/
structure SourceFunc where
  type : FuncType
  locals : List ValType := []
  body : List Instr
  deriving Repr

structure GlobalType where
  type : ValType
  isMutable : Bool
  deriving DecidableEq, Repr

/-- What becomes of a segment when a guest is made: it is placed, it is kept for later, or it only
tells which functions are referred to. -/
inductive Placement
  | active (offset : Nat)
  | passive
  | declared
  deriving DecidableEq, Repr

/-- A module as it is written. Types of imported variables come before the variables of its own.
`dataCount` is how many data segments its code may name. -/
structure Source where
  imports : List Import := []
  importedGlobals : List GlobalType := []
  funcs : List SourceFunc := []
  memory : Option Limits := none
  table : Option Limits := none
  globals : List (GlobalType × Val) := []
  exports : List Export := []
  elems : List (Placement × List (Option Nat)) := []
  data : List (Placement × List UInt8) := []
  dataCount : Nat := 0
  start : Option Nat := none
  deriving Repr

namespace Source

def funcTypes (s : Source) : List FuncType :=
  (s.imports.filterMap fun i => match i.desc with
    | .func type => some type
    | _ => none) ++ s.funcs.map (·.type)

end Source

end GuestHost.Wasm
