import GuestHost.Wasm.Binary.Code
import GuestHost.Wasm.Compile

/-!
Modules in the binary format: a header, then sections in order, each with its size. Sections that
hold nothing a module is made of may stand anywhere and are passed over. One memory and one table are
all that a module may have here.
-/

namespace GuestHost.Wasm.Binary

open Reader

structure Parts where
  types : List FuncType := []
  imports : List (Import × Option GlobalType) := []
  funcs : List Nat := []
  tables : List Limits := []
  memories : List Limits := []
  globals : List (GlobalType × Val) := []
  exports : List Export := []
  start : Option Nat := none
  elems : List (Placement × List (Option Nat)) := []
  dataCount : Option Nat := none
  code : List (List ValType × List Instr) := []
  data : List (Placement × List UInt8) := []
  deriving Repr

namespace Parts

def importedGlobals (p : Parts) : List GlobalType := p.imports.filterMap (·.2)

end Parts

def importEntry (types : List FuncType) : Reader (Import × Option GlobalType) := do
  let ns ← name
  let field ← name
  match ← byte with
  | 0x00 => do
    let type ← ofOption types[← u32]?
    return (⟨ns, field, .func type⟩, none)
  | 0x01 => do
    let _ ← tableType
    return (⟨ns, field, .table⟩, none)
  | 0x02 => do
    let _ ← limits
    return (⟨ns, field, .memory⟩, none)
  | 0x03 => do
    let type ← globalType
    return (⟨ns, field, .global⟩, some type)
  | _ => failure

def exportEntry : Reader Export := do
  let field ← name
  let kind ← byte
  let index ← u32
  match kind with
  | 0x00 => return ⟨field, .func, index⟩
  | 0x01 => return ⟨field, .table, index⟩
  | 0x02 => return ⟨field, .memory, index⟩
  | 0x03 => return ⟨field, .global, index⟩
  | _ => failure

def globalEntry (imported : List GlobalType) : Reader (GlobalType × Val) := do
  return (← globalType, ← constantExpr imported)

def elemItems (imported : List GlobalType) (byConstant : Bool) : Reader (List (Option Nat)) :=
  if byConstant then vec (reference imported) else return (← vec u32).map some

def elemKind (byConstant : Bool) : Reader Unit :=
  if byConstant then refType else expect 0x00

/-- The lowest bit of the code says that the segment is not placed, the next one that the table is
named or that it is only declared, and the third how functions are named. -/
def elemEntry (imported : List GlobalType) : Reader (Placement × List (Option Nat)) := do
  let code ← u32
  let byConstant := code / 4 % 2 = 1
  if 8 ≤ code then failure
  else match code % 4 with
    | 0 => do
      let base ← offset imported
      return (.active base, ← elemItems imported byConstant)
    | 2 => do
      zeroIndex
      let base ← offset imported
      elemKind byConstant
      return (.active base, ← elemItems imported byConstant)
    | kind => do
      elemKind byConstant
      return (if kind = 1 then .passive else .declared, ← elemItems imported byConstant)

def dataEntry (imported : List GlobalType) : Reader (Placement × List UInt8) := do
  match ← u32 with
  | 0 => do
    let base ← offset imported
    return (.active base, ← take (← u32))
  | 1 => return (.passive, ← take (← u32))
  | 2 => do
    zeroIndex
    let base ← offset imported
    return (.active base, ← take (← u32))
  | _ => failure

def readSection (id : UInt8) (p : Parts) : Reader Parts := do
  match id with
  | 1 => return { p with types := ← vec funcType }
  | 2 => return { p with imports := ← vec (importEntry p.types) }
  | 3 => return { p with funcs := ← vec u32 }
  | 4 => return { p with tables := ← vec tableType }
  | 5 => return { p with memories := ← vec limits }
  | 6 => return { p with globals := ← vec (globalEntry p.importedGlobals) }
  | 7 => return { p with exports := ← vec exportEntry }
  | 8 => return { p with start := some (← u32) }
  | 9 => return { p with elems := ← vec (elemEntry p.importedGlobals) }
  | 12 => return { p with dataCount := some (← u32) }
  | 10 => return { p with code := ← vec (body p.types) }
  | 11 => return { p with data := ← vec (dataEntry p.importedGlobals) }
  | _ => failure

/-- The place of a section among the others: the count of data segments comes before the code. -/
def place (id : UInt8) : Nat :=
  match id with
  | 12 => 10
  | 10 => 11
  | 11 => 12
  | id => id.toNat

def sections (last : Nat) (p : Parts) : Nat → List UInt8 → Option Parts
  | 0, _ => none
  | fuel + 1, bytes =>
    match bytes with
    | [] => some p
    | id :: rest =>
      match (do take (← u32) : Reader (List UInt8)).run rest with
      | none => none
      | some (content, rest) =>
        if id = 0 then
          if (name.run content).isSome then sections last p fuel rest else none
        else if place id ≤ last then none
        else
          match whole (readSection id p) content with
          | some p => sections (place id) p fuel rest
          | none => none

def single (ls : List Limits) : Option (Option Limits) :=
  match ls with
  | [] => some none
  | [l] => some (some l)
  | _ => none

def functions (p : Parts) : Option (List SourceFunc) :=
  if p.funcs.length ≠ p.code.length then none
  else (p.funcs.zip p.code).mapM fun (type, ls, is) =>
    p.types[type]?.map fun t => { type := t, locals := ls, body := is }

def header : List UInt8 := [0x00, 0x61, 0x73, 0x6d, 0x01, 0x00, 0x00, 0x00]

def source? (bytes : List UInt8) : Option Source := do
  guard (bytes.take header.length = header)
  let p ← sections 0 {} (bytes.length + 1) (bytes.drop header.length)
  guard (p.dataCount.all (· = p.data.length))
  return {
    imports := p.imports.map (·.1)
    importedGlobals := p.importedGlobals
    funcs := ← functions p
    memory := ← single p.memories
    table := ← single p.tables
    globals := p.globals
    exports := p.exports
    elems := p.elems
    data := p.data
    dataCount := p.dataCount.getD 0
    start := p.start }

def decode? (engine : Engine) (bytes : List UInt8) : Option Module := do
  let source ← source? bytes
  source.compile? engine

end GuestHost.Wasm.Binary
