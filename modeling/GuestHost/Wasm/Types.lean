/-!
Types and values of the guest machine. A word carries no sign; the operations read one into it.
-/

namespace GuestHost.Wasm

inductive ValType
  | i32
  | i64
  | f32
  | f64
  | v128
  | funcref
  deriving DecidableEq, Repr

namespace ValType

def name : ValType → String
  | i32 => "i32"
  | i64 => "i64"
  | f32 => "f32"
  | f64 => "f64"
  | v128 => "v128"
  | funcref => "(ref null func)"

end ValType

structure FuncType where
  params : List ValType
  results : List ValType
  deriving DecidableEq, Repr

/-- Floating values are held as their bits. A function reference holds a function index. -/
inductive Val
  | i32 (word : BitVec 32)
  | i64 (word : BitVec 64)
  | f32 (bits : BitVec 32)
  | f64 (bits : BitVec 64)
  | v128 (bits : BitVec 128)
  | funcref (func : Option Nat)
  deriving DecidableEq, Repr

namespace Val

def type : Val → ValType
  | i32 _ => .i32
  | i64 _ => .i64
  | f32 _ => .f32
  | f64 _ => .f64
  | v128 _ => .v128
  | funcref _ => .funcref

def zero : ValType → Val
  | .i32 => i32 0
  | .i64 => i64 0
  | .f32 => f32 0
  | .f64 => f64 0
  | .v128 => v128 0
  | .funcref => funcref none

end Val

end GuestHost.Wasm
