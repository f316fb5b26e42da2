/-!
Reading the binary format: each reader takes what it needs from the front of the bytes.
-/

namespace GuestHost.Wasm.Binary

abbrev Reader (α : Type) := StateT (List UInt8) Option α

namespace Reader

variable {α : Type}

def ofOption (x : Option α) : Reader α := fun bs => x.map (·, bs)

def byte : Reader UInt8 := fun
  | [] => none
  | b :: bs => some (b, bs)

def take (n : Nat) : Reader (List UInt8) := fun bs =>
  if n ≤ bs.length then some (bs.splitAt n) else none

def expect (b : UInt8) : Reader Unit := do
  if (← byte) = b then return () else failure

/-- Seven bits a byte, low ones first; the top bit says that more follow. `left` bounds the bytes. -/
def groups : Nat → Reader (List Nat)
  | 0 => failure
  | left + 1 => do
    let b ← byte
    let digit := b.toNat % 128
    if b.toNat < 128 then return [digit]
    else return digit :: (← groups left)

def natOf (digits : List Nat) : Nat := digits.foldr (fun d n => d + 128 * n) 0

def u32 : Reader Nat := do
  let n := natOf (← groups 5)
  if n < Nat.pow 2 32 then return n else failure

def signed (bits : Nat) : Reader Int := do
  let digits ← groups ((bits + 6) / 7)
  let n := natOf digits
  let width := 7 * digits.length
  let v : Int := if n < Nat.pow 2 (width - 1) then n else n - Nat.pow 2 width
  if -Nat.pow 2 (bits - 1) ≤ v ∧ v < Nat.pow 2 (bits - 1) then return v else failure

def times (p : Reader α) : Nat → Reader (List α)
  | 0 => return []
  | n + 1 => do
    let a ← p
    return a :: (← times p n)

def vec (p : Reader α) : Reader (List α) := do
  times p (← u32)

def name : Reader String := do
  let bytes ← take (← u32)
  match String.fromUTF8? ⟨bytes.toArray⟩ with
  | some s => return s
  | none => failure

def whole (p : Reader α) (bytes : List UInt8) : Option α :=
  match p.run bytes with
  | some (a, []) => some a
  | _ => none

end Reader

end GuestHost.Wasm.Binary
