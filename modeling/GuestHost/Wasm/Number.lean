import GuestHost.Wasm.Body

/-!
Numbers: what the operations make of words, read as whole numbers with or without a sign or as
floating numbers in their bits. A floating result that is no number has the canonical bits.
-/

namespace GuestHost.Wasm

inductive Width
  | w32
  | w64
  deriving DecidableEq, Repr

namespace Width

abbrev bits : Width → Nat
  | w32 => 32
  | w64 => 64

def int : Width → ValType
  | w32 => .i32
  | w64 => .i64

def float : Width → ValType
  | w32 => .f32
  | w64 => .f64

end Width

namespace Val

def ofInt : (w : Width) → BitVec w.bits → Val
  | .w32, x => i32 x
  | .w64, x => i64 x

def ofFloat : (w : Width) → BitVec w.bits → Val
  | .w32, x => f32 x
  | .w64, x => f64 x

def int? : (w : Width) → Val → Option (BitVec w.bits)
  | .w32, i32 x => some x
  | .w64, i64 x => some x
  | _, _ => none

def float? : (w : Width) → Val → Option (BitVec w.bits)
  | .w32, f32 x => some x
  | .w64, f64 x => some x
  | _, _ => none

def ofBool (b : Bool) : Val := i32 (if b then 1 else 0)

end Val

/-! Whole numbers -/

inductive IntUn
  | clz
  | ctz
  | popcnt
  | extend (bits : Nat)
  deriving DecidableEq, Repr

inductive IntBin
  | add
  | sub
  | mul
  | div (signed : Bool)
  | rem (signed : Bool)
  | and
  | or
  | xor
  | shl
  | shr (signed : Bool)
  | rotl
  | rotr
  deriving DecidableEq, Repr

inductive IntRel
  | eq
  | ne
  | lt (signed : Bool)
  | gt (signed : Bool)
  | le (signed : Bool)
  | ge (signed : Bool)
  deriving DecidableEq, Repr

def IntUn.eval {w : Nat} : IntUn → BitVec w → BitVec w
  | clz, x => x.clz
  | ctz, x => x.ctz
  | popcnt, x => x.cpop
  | extend bits, x => (x.setWidth bits).signExtend w

namespace IntBin

def divide {w : Nat} (signed : Bool) (x y : BitVec w) : Body (BitVec w) :=
  if y = 0 then .trap .divideByZero
  else if !signed then return x / y
  else if x = BitVec.intMin w ∧ y = BitVec.allOnes w then .trap .integerOverflow
  else return x.sdiv y

def remainder {w : Nat} (signed : Bool) (x y : BitVec w) : Body (BitVec w) :=
  if y = 0 then .trap .divideByZero
  else return if signed then x.srem y else x % y

def eval {w : Nat} : IntBin → BitVec w → BitVec w → Body (BitVec w)
  | add, x, y => return x + y
  | sub, x, y => return x - y
  | mul, x, y => return x * y
  | div signed, x, y => divide signed x y
  | rem signed, x, y => remainder signed x y
  | and, x, y => return x &&& y
  | or, x, y => return x ||| y
  | xor, x, y => return x ^^^ y
  | shl, x, y => return x <<< (y.toNat % w)
  | shr true, x, y => return x.sshiftRight (y.toNat % w)
  | shr false, x, y => return x >>> (y.toNat % w)
  | rotl, x, y => return x.rotateLeft (y.toNat % w)
  | rotr, x, y => return x.rotateRight (y.toNat % w)

end IntBin

def IntRel.eval {w : Nat} : IntRel → BitVec w → BitVec w → Bool
  | eq, x, y => x == y
  | ne, x, y => x != y
  | lt true, x, y => x.slt y
  | lt false, x, y => x.ult y
  | gt true, x, y => y.slt x
  | gt false, x, y => y.ult x
  | le true, x, y => x.sle y
  | le false, x, y => x.ule y
  | ge true, x, y => y.sle x
  | ge false, x, y => y.ule x

/-! Floating numbers -/

inductive FloatUn
  | abs
  | neg
  | ceil
  | floor
  | trunc
  | nearest
  | sqrt
  deriving DecidableEq, Repr

inductive FloatBin
  | add
  | sub
  | mul
  | div
  | min
  | max
  | copysign
  deriving DecidableEq, Repr

inductive FloatRel
  | eq
  | ne
  | lt
  | gt
  | le
  | ge
  deriving DecidableEq, Repr

namespace Width

/-- The number in the bits. Every number of 32 bits is one of 64 bits. -/
def toFloat : (w : Width) → BitVec w.bits → Float
  | w32, x => (Float32.ofBits (UInt32.ofBitVec x)).toFloat
  | w64, x => Float.ofBits (UInt64.ofBitVec x)

/-- The bits of the nearest number. A sum, product, quotient or root of numbers of 32 bits comes out
the same when it is first rounded to 64. -/
def ofFloat : (w : Width) → Float → BitVec w.bits
  | w32, x => x.toFloat32.toBits.toBitVec
  | w64, x => x.toBits.toBitVec

def signBit (w : Width) : BitVec w.bits := BitVec.intMin w.bits

def withSign (w : Width) (x y : BitVec w.bits) : BitVec w.bits :=
  (x &&& ~~~ w.signBit) ||| (y &&& w.signBit)

end Width

def truncate (x : Float) : Float := if x < 0 then x.ceil else x.floor

def nearest (x : Float) : Float :=
  let low := x.floor
  if x - low < 0.5 then low
  else if 0.5 < x - low then low + 1
  else if (low / 2).floor * 2 == low then low
  else low + 1

def FloatUn.eval (w : Width) (op : FloatUn) (x : BitVec w.bits) : BitVec w.bits :=
  -- A rounded number keeps its sign, also when it comes to nothing.
  let rounded (f : Float → Float) : BitVec w.bits :=
    let y := w.toFloat x
    if y.isNaN then w.ofFloat y
    else if y.isInf then x
    else w.withSign (w.ofFloat (f y)) x
  match op with
  | abs => x &&& ~~~ w.signBit
  | neg => x ^^^ w.signBit
  | ceil => rounded Float.ceil
  | floor => rounded Float.floor
  | trunc => rounded truncate
  | nearest => rounded Wasm.nearest
  | sqrt => w.ofFloat (w.toFloat x).sqrt

/-- The lesser of two, where zero with a sign is less than zero without. -/
def least (w : Width) (x y : BitVec w.bits) : BitVec w.bits :=
  let a := w.toFloat x
  let b := w.toFloat y
  if a.isNaN || b.isNaN then w.ofFloat (a + b)
  else if a == b then x ||| y
  else if a < b then x
  else y

def greatest (w : Width) (x y : BitVec w.bits) : BitVec w.bits :=
  let a := w.toFloat x
  let b := w.toFloat y
  if a.isNaN || b.isNaN then w.ofFloat (a + b)
  else if a == b then x &&& y
  else if a < b then y
  else x

def FloatBin.eval (w : Width) (op : FloatBin) (x y : BitVec w.bits) : BitVec w.bits :=
  let a := w.toFloat x
  let b := w.toFloat y
  match op with
  | add => w.ofFloat (a + b)
  | sub => w.ofFloat (a - b)
  | mul => w.ofFloat (a * b)
  | div => w.ofFloat (a / b)
  | min => least w x y
  | max => greatest w x y
  | copysign => w.withSign x y

def FloatRel.eval (w : Width) (op : FloatRel) (x y : BitVec w.bits) : Bool :=
  let a := w.toFloat x
  let b := w.toFloat y
  match op with
  | eq => a == b
  | ne => a != b
  | lt => a < b
  | gt => b < a
  | le => a ≤ b
  | ge => b ≤ a

/-! Conversions -/

inductive Conversion
  | wrap
  | extend (signed : Bool)
  | trunc (i : Width) (signed : Bool) (f : Width)
  | truncSat (i : Width) (signed : Bool) (f : Width)
  | convert (f : Width) (signed : Bool) (i : Width)
  | demote
  | promote
  | toBits (w : Width)
  | ofBits (w : Width)
  deriving DecidableEq, Repr

def integerPart? (x : Float) : Option Int :=
  let bits := x.toBits.toNat
  let exponent := bits / Nat.pow 2 52 % Nat.pow 2 11
  let fraction := bits % Nat.pow 2 52
  let digits := if exponent = 0 then fraction else fraction + Nat.pow 2 52
  let whole := if 1075 ≤ exponent then digits * Nat.pow 2 (exponent - 1075)
    else digits / Nat.pow 2 (1075 - exponent)
  if exponent = 2047 then none
  else some (if Nat.pow 2 63 ≤ bits then -whole else whole)

def range (bits : Nat) (signed : Bool) : Int × Int :=
  if signed then (-Nat.pow 2 (bits - 1), Nat.pow 2 (bits - 1) - 1) else (0, Nat.pow 2 bits - 1)

def truncTo (bits : Nat) (signed : Bool) (x : Float) : Body (BitVec bits) :=
  let (low, high) := range bits signed
  match integerPart? x with
  | some n =>
    if low ≤ n ∧ n ≤ high then return BitVec.ofInt bits n else .trap .integerOverflow
  | none => if x.isNaN then .trap .badConversion else .trap .integerOverflow

def truncSatTo (bits : Nat) (signed : Bool) (x : Float) : BitVec bits :=
  let (low, high) := range bits signed
  match integerPart? x with
  | some n => BitVec.ofInt bits (max low (min n high))
  | none => if x.isNaN then 0 else BitVec.ofInt bits (if x < 0 then low else high)

def convertFrom (f : Width) (signed : Bool) (x : BitVec 64) : BitVec f.bits :=
  match f, signed with
  | .w32, true => (Int64.ofBitVec x).toFloat32.toBits.toBitVec
  | .w32, false => (UInt64.ofBitVec x).toFloat32.toBits.toBitVec
  | .w64, true => (Int64.ofBitVec x).toFloat.toBits.toBitVec
  | .w64, false => (UInt64.ofBitVec x).toFloat.toBits.toBitVec

namespace Conversion

def source : Conversion → ValType
  | wrap => .i64
  | extend _ => .i32
  | trunc _ _ f | truncSat _ _ f => f.float
  | convert _ _ i => i.int
  | demote => .f64
  | promote => .f32
  | toBits w => w.float
  | ofBits w => w.int

def target : Conversion → ValType
  | wrap => .i32
  | extend _ => .i64
  | trunc i _ _ | truncSat i _ _ => i.int
  | convert f _ _ => f.float
  | demote => .f32
  | promote => .f64
  | toBits w => w.int
  | ofBits w => w.float

def eval (c : Conversion) (v : Val) : Body Val :=
  match c, v with
  | wrap, .i64 x => return .i32 (x.setWidth 32)
  | extend signed, .i32 x => return .i64 (if signed then x.signExtend 64 else x.setWidth 64)
  | trunc i signed f, v =>
    match v.float? f with
    | some x => do return .ofInt i (← truncTo i.bits signed (f.toFloat x))
    | none => .malformed
  | truncSat i signed f, v =>
    match v.float? f with
    | some x => return .ofInt i (truncSatTo i.bits signed (f.toFloat x))
    | none => .malformed
  | convert f signed i, v =>
    match v.int? i with
    | some x =>
      return .ofFloat f (convertFrom f signed (if signed then x.signExtend 64 else x.setWidth 64))
    | none => .malformed
  | demote, .f64 x => return .f32 (Width.ofFloat .w32 (Width.toFloat .w64 x))
  | promote, .f32 x => return .f64 (Width.ofFloat .w64 (Width.toFloat .w32 x))
  | toBits w, v =>
    match v.float? w with
    | some x => return .ofInt w x
    | none => .malformed
  | ofBits w, v =>
    match v.int? w with
    | some x => return .ofFloat w x
    | none => .malformed
  | _, _ => .malformed

end Conversion

end GuestHost.Wasm
