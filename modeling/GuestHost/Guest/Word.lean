import GuestHost.Wasm.Types

/-!
Words: the arguments and results of calls from outside. A word is read as its declared type says.
-/

namespace GuestHost.Wasm

namespace Val

/-- The value that a word stands for; types of 32 bits take its low half. -/
def ofWord? (w : BitVec 64) : ValType → Option Val
  | .i32 => some (i32 (w.setWidth 32))
  | .i64 => some (i64 w)
  | .f32 => some (f32 (w.setWidth 32))
  | .f64 => some (f64 w)
  | .v128 | .funcref => none

def toWord? : Val → Option (BitVec 64)
  | i32 w => some (w.setWidth 64)
  | i64 w => some w
  | f32 w => some (w.setWidth 64)
  | f64 w => some w
  | v128 _ | funcref _ => none

theorem type_of_ofWord? {w : BitVec 64} {t : ValType} {v : Val} (read : ofWord? w t = some v) :
    v.type = t := by
  cases t with
  | i32 | i64 | f32 | f64 =>
    cases read
    rfl
  | v128 | funcref => cases read

end Val

end GuestHost.Wasm
