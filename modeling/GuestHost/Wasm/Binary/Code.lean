import GuestHost.Wasm.Binary.Reader
import GuestHost.Wasm.Instr

/-!
Types and code in the binary format. Instructions on vectors, of shared memories, of tail calls and
of exceptions are not known here.
-/

namespace GuestHost.Wasm.Binary

open Reader

def valTypeOf? (b : UInt8) : Option ValType :=
  match b with
  | 0x7f => some .i32
  | 0x7e => some .i64
  | 0x7d => some .f32
  | 0x7c => some .f64
  | 0x7b => some .v128
  | 0x70 => some .funcref
  | _ => none

def valType : Reader ValType := do
  ofOption (valTypeOf? (← byte))

def funcType : Reader FuncType := do
  expect 0x60
  let params ← vec valType
  let results ← vec valType
  return ⟨params, results⟩

def limits : Reader Limits := do
  match ← byte with
  | 0x00 => return { min := ← u32 }
  | 0x01 => return { min := ← u32, max := some (← u32) }
  | _ => failure

def refType : Reader Unit := expect 0x70

def tableType : Reader Limits := do
  refType
  limits

def globalType : Reader GlobalType := do
  let type ← valType
  match ← byte with
  | 0x00 => return ⟨type, false⟩
  | 0x01 => return ⟨type, true⟩
  | _ => failure

def memArg : Reader MemArg := do
  return ⟨← u32, ← u32⟩

def zeroIndex : Reader Unit := expect 0x00

def bits (w : Width) : Reader (BitVec w.bits) := do
  return Word.ofBytes w.bits (← take (w.bits / 8))

/-! Instructions -/

def intRels : List IntRel :=
  [.eq, .ne, .lt true, .lt false, .gt true, .gt false, .le true, .le false, .ge true, .ge false]

def intBins : List IntBin :=
  [.add, .sub, .mul, .div true, .div false, .rem true, .rem false, .and, .or, .xor, .shl, .shr true,
    .shr false, .rotl, .rotr]

def intUns : List IntUn := [.clz, .ctz, .popcnt]

def floatRels : List FloatRel := [.eq, .ne, .lt, .gt, .le, .ge]

def floatUns : List FloatUn := [.abs, .neg, .ceil, .floor, .trunc, .nearest, .sqrt]

def floatBins : List FloatBin := [.add, .sub, .mul, .div, .min, .max, .copysign]

def cuts (cut : Width → Bool → Width → Conversion) (i : Width) : List Op :=
  [.convert (cut i true .w32), .convert (cut i false .w32), .convert (cut i true .w64),
    .convert (cut i false .w64)]

def conversions (f : Width) : List Op :=
  [.convert (.convert f true .w32), .convert (.convert f false .w32), .convert (.convert f true .w64),
    .convert (.convert f false .w64)]

/-- The instructions on numbers, in the order of their codes from 0x45 on. -/
def numeric : List Op :=
  .eqz .w32 :: intRels.map (.intRel .w32) ++
  .eqz .w64 :: intRels.map (.intRel .w64) ++
  floatRels.map (.floatRel .w32) ++
  floatRels.map (.floatRel .w64) ++
  intUns.map (.intUn .w32) ++ intBins.map (.intBin .w32) ++
  intUns.map (.intUn .w64) ++ intBins.map (.intBin .w64) ++
  floatUns.map (.floatUn .w32) ++ floatBins.map (.floatBin .w32) ++
  floatUns.map (.floatUn .w64) ++ floatBins.map (.floatBin .w64) ++
  .convert .wrap :: cuts .trunc .w32 ++
  .convert (.extend true) :: .convert (.extend false) :: cuts .trunc .w64 ++
  conversions .w32 ++ .convert .demote ::
  conversions .w64 ++ .convert .promote ::
  [.convert (.toBits .w32), .convert (.toBits .w64), .convert (.ofBits .w32),
    .convert (.ofBits .w64)] ++
  [.intUn .w32 (.extend 8), .intUn .w32 (.extend 16), .intUn .w64 (.extend 8),
    .intUn .w64 (.extend 16), .intUn .w64 (.extend 32)]

/-- The accesses to memory, in the order of their codes from 0x28 on. -/
def accesses : List (MemArg → Op) :=
  [.load .w32 4 false, .load .w64 8 false, .loadFloat .w32, .loadFloat .w64,
    .load .w32 1 true, .load .w32 1 false, .load .w32 2 true, .load .w32 2 false,
    .load .w64 1 true, .load .w64 1 false, .load .w64 2 true, .load .w64 2 false,
    .load .w64 4 true, .load .w64 4 false,
    .store .w32 4, .store .w64 8, .storeFloat .w32, .storeFloat .w64,
    .store .w32 1, .store .w32 2, .store .w64 1, .store .w64 2, .store .w64 4]

def blockType (types : List FuncType) : Reader FuncType := do
  let code ← signed 33
  if code = -64 then return ⟨[], []⟩
  else if code < 0 then
    return ⟨[], [← ofOption (valTypeOf? (UInt8.ofNat (code + 128).toNat))]⟩
  else ofOption types[code.toNat]?

inductive Token
  | instr (i : Instr)
  | blockMark (type : FuncType)
  | loopMark (type : FuncType)
  | ifMark (type : FuncType)
  | elseMark
  | endMark
  deriving Repr

def op (o : Op) : Reader Token := return .instr (.op o)

def furtherOp : Reader Op := do
  let code ← u32
  if code < 8 then ofOption (cuts .truncSat .w32 ++ cuts .truncSat .w64)[code]?
  else match code with
    | 8 => do
      let segment ← u32
      zeroIndex
      return .memoryInit segment
    | 9 => return .dataDrop (← u32)
    | 10 => do
      zeroIndex
      zeroIndex
      return .memoryCopy
    | 11 => do
      zeroIndex
      return .memoryFill
    | 12 => do
      let segment ← u32
      zeroIndex
      return .tableInit segment
    | 13 => return .elemDrop (← u32)
    | 14 => do
      zeroIndex
      zeroIndex
      return .tableCopy
    | 15 => do
      zeroIndex
      return .tableGrow
    | 16 => do
      zeroIndex
      return .tableSize
    | 17 => do
      zeroIndex
      return .tableFill
    | _ => failure

def token (types : List FuncType) : Reader Token := do
  match ← byte with
  | 0x00 => op .unreachable
  | 0x01 => op .nop
  | 0x02 => return .blockMark (← blockType types)
  | 0x03 => return .loopMark (← blockType types)
  | 0x04 => return .ifMark (← blockType types)
  | 0x05 => return .elseMark
  | 0x0b => return .endMark
  | 0x0c => return .instr (.br (← u32))
  | 0x0d => return .instr (.brIf (← u32))
  | 0x0e => do
    let labels ← vec u32
    return .instr (.brTable labels (← u32))
  | 0x0f => return .instr .ret
  | 0x10 => return .instr (.call (← u32))
  | 0x11 => do
    let type ← ofOption types[← u32]?
    zeroIndex
    return .instr (.callIndirect type)
  | 0x1a => op .drop
  | 0x1b => op (.select none)
  | 0x1c => do
    match ← vec valType with
    | [t] => op (.select (some t))
    | _ => failure
  | 0x20 => op (.localGet (← u32))
  | 0x21 => op (.localSet (← u32))
  | 0x22 => op (.localTee (← u32))
  | 0x23 => op (.globalGet (← u32))
  | 0x24 => op (.globalSet (← u32))
  | 0x25 => do
    zeroIndex
    op .tableGet
  | 0x26 => do
    zeroIndex
    op .tableSet
  | 0x3f => do
    zeroIndex
    op .memorySize
  | 0x40 => do
    zeroIndex
    op .memoryGrow
  | 0x41 => op (.const (.i32 (BitVec.ofInt 32 (← signed 32))))
  | 0x42 => op (.const (.i64 (BitVec.ofInt 64 (← signed 64))))
  | 0x43 => op (.const (.f32 (← bits .w32)))
  | 0x44 => op (.const (.f64 (← bits .w64)))
  | 0xd0 => do
    refType
    op .refNull
  | 0xd1 => op .refIsNull
  | 0xd2 => op (.refFunc (← u32))
  | 0xfc => op (← furtherOp)
  | b =>
    if b < 0x28 then failure
    else if b < 0x45 then op ((← ofOption accesses[b.toNat - 0x28]?) (← memArg))
    else op (← ofOption numeric[b.toNat - 0x45]?)

def tokens (types : List FuncType) : Nat → Reader (List Token)
  | 0 => fun bs => if bs.isEmpty then some ([], bs) else none
  | n + 1 => fun bs =>
    if bs.isEmpty then some ([], bs)
    else (do return (← token types) :: (← tokens types n) : Reader (List Token)) bs

inductive Opened
  | block (type : FuncType)
  | loop (type : FuncType)
  | thenBranch (type : FuncType)
  | elseBranch (type : FuncType) (thn : List Instr)
  deriving Repr

/-- Put the pieces together. `done` holds the code of the innermost open block, last first; for each
block that is open there is the code before it, last first. A body's own end comes last. -/
def assemble : List Token → List Instr → List (Opened × List Instr) → Option (List Instr)
  | [.endMark], done, [] => some done.reverse
  | .instr i :: ts, done, opened => assemble ts (i :: done) opened
  | .blockMark t :: ts, done, opened => assemble ts [] ((.block t, done) :: opened)
  | .loopMark t :: ts, done, opened => assemble ts [] ((.loop t, done) :: opened)
  | .ifMark t :: ts, done, opened => assemble ts [] ((.thenBranch t, done) :: opened)
  | .elseMark :: ts, done, (.thenBranch t, before) :: opened =>
    assemble ts [] ((.elseBranch t done.reverse, before) :: opened)
  | .endMark :: ts, done, (o, before) :: opened =>
    let closed : Instr := match o with
      | .block t => .block t done.reverse
      | .loop t => .loop t done.reverse
      | .thenBranch t => .cond t done.reverse []
      | .elseBranch t thn => .cond t thn done.reverse
    assemble ts (closed :: before) opened
  | _, _, _ => none

/-- Variables come in runs of one type. More than fifty thousand are refused. -/
def locals : Reader (List ValType) := do
  let runs ← vec do
    let count ← u32
    return (count, ← valType)
  if (runs.map (·.1)).foldr (· + ·) 0 ≤ 50000 then return runs.flatMap fun r => List.replicate r.1 r.2
  else failure

def body (types : List FuncType) : Reader (List ValType × List Instr) := do
  let bytes ← take (← u32)
  let (ls, code) ← ofOption (locals.run bytes)
  let ts ← ofOption (whole (tokens types code.length) code)
  return (ls, ← ofOption (assemble ts [] []))

/-! Constants -/

/-- What an operation of a constant makes of the values on the stack, top first. The value of an
imported variable is not known here; no guest is made of a module with one. -/
def constant (imported : List GlobalType) (o : Op) (stack : List Val) : Option (List Val) :=
  match o, stack with
  | .const v, vs => some (v :: vs)
  | .refNull, vs => some (.funcref none :: vs)
  | .refFunc func, vs => some (.funcref (some func) :: vs)
  | .globalGet i, vs => do
    let g ← imported[i]?
    if g.isMutable then none else some (Val.zero g.type :: vs)
  | .intBin .w32 .add, .i32 y :: .i32 x :: vs => some (.i32 (x + y) :: vs)
  | .intBin .w32 .sub, .i32 y :: .i32 x :: vs => some (.i32 (x - y) :: vs)
  | .intBin .w32 .mul, .i32 y :: .i32 x :: vs => some (.i32 (x * y) :: vs)
  | .intBin .w64 .add, .i64 y :: .i64 x :: vs => some (.i64 (x + y) :: vs)
  | .intBin .w64 .sub, .i64 y :: .i64 x :: vs => some (.i64 (x - y) :: vs)
  | .intBin .w64 .mul, .i64 y :: .i64 x :: vs => some (.i64 (x * y) :: vs)
  | _, _ => none

def constantFrom (imported : List GlobalType) : Nat → List Val → Reader Val
  | 0, _ => failure
  | left + 1, stack => do
    match ← token [] with
    | .endMark =>
      match stack with
      | [v] => return v
      | _ => failure
    | .instr (.op o) => constantFrom imported left (← ofOption (constant imported o stack))
    | _ => failure

def constantExpr (imported : List GlobalType) : Reader Val := fun bs =>
  constantFrom imported bs.length [] bs

def offset (imported : List GlobalType) : Reader Nat := do
  match ← constantExpr imported with
  | .i32 w => return w.toNat
  | _ => failure

def reference (imported : List GlobalType) : Reader (Option Nat) := do
  match ← constantExpr imported with
  | .funcref func => return func
  | _ => failure

end GuestHost.Wasm.Binary
