import GuestHost.Effect.Escalation
import GuestHost.Import.HostFunction

/-!
What the calls of the system interface do. A call that answers checks every range it was given
before it has any effect.
-/

namespace GuestHost

open Wasm (Val)

structure Iovec where
  base : BitVec 32
  length : BitVec 32
  deriving DecidableEq, Repr

namespace Iovec

/-- Each buffer takes eight bytes: where it begins and how long it is. -/
def decode : List UInt8 → List Iovec
  | a :: b :: c :: d :: e :: f :: g :: h :: rest =>
    ⟨Word.ofBytes 32 [a, b, c, d], Word.ofBytes 32 [e, f, g, h]⟩ :: decode rest
  | _ => []

def encode (v : Iovec) : List UInt8 := Word.bytes v.base 4 ++ Word.bytes v.length 4

def readAll (m : Memory) (offset count : Nat) : Except HostError (List Iovec) := do
  let _ ← checkBounds offset (8 * count) m.size
  if Nat.pow 2 32 ≤ 8 * count then throw (.outOfBounds offset (8 * count) m.size)
  let bytes ← m.read offset (8 * count)
  return decode bytes

def check (m : Memory) (v : Iovec) : Except HostError Unit :=
  (checkBounds v.base.toNat v.length.toNat m.size).map fun _ => ()

def bytes (m : Memory) (v : Iovec) : List UInt8 := m.slice v.base.toNat v.length.toNat

def total (vs : List Iovec) : Nat := (vs.map (·.length.toNat)).foldr (· + ·) 0

end Iovec

namespace WasiCall

variable {A : Type → Type}

namespace Errno

def success : BitVec 32 := 0
def badFile : BitVec 32 := 8
def invalid : BitVec 32 := 28
def io : BitVec 32 := 29

end Errno

def stream? (fd : BitVec 32) : Option OutputStream :=
  if fd = 1 then some .stdout
  else if fd = 2 then some .stderr
  else none

def sendAll (stream : OutputStream) : List (List UInt8) → Run Bool
  | [] => return true
  | chunk :: chunks => do
    if ← Run.ask (.offer stream chunk) then sendAll stream chunks
    else return false

/-- Keep the chunks or send them, as the guest is configured. False when one was refused. -/
def deliver (stream : OutputStream) (chunks : List (List UInt8)) : Run Bool := do
  let host ← Run.host
  if host.config.captureOutput then
    Run.modifyHost (·.capture stream chunks.flatten)
    return true
  else sendAll stream chunks

def gather (m : Memory) (iovs count nwritten : Nat) : Except HostError (List Iovec) := do
  let vs ← Iovec.readAll m iovs count
  let _ ← checkBounds nwritten 4 m.size
  vs.forM (Iovec.check m)
  return vs

def write (c : ContextIn A) (fd iovs count nwritten : BitVec 32) : Run (BitVec 32) := do
  match stream? fd with
  | none => return Errno.badFile
  | some stream =>
    let m ← c.memory
    let vs ← Run.ofExcept (gather m.toMemory iovs.toNat count.toNat nwritten.toNat)
    let total := Iovec.total vs
    if m.size < total then return Errno.invalid
    else if ← deliver stream (vs.map (Iovec.bytes m.toMemory)) then
      let m ← Run.ofExcept (m.edit (·.writeU32 nwritten.toNat (BitVec.ofNat 32 total)))
      Run.setMemory m
      return Errno.success
    else return Errno.io

def storeU32 (c : ContextIn A) (pointer word : BitVec 32) : Run Unit := do
  let m ← c.memory
  let m ← Run.ofExcept (m.edit (·.writeU32 pointer.toNat word))
  Run.setMemory m

/-- A count of entries and a size of their texts, both zero. -/
def emptySizes (c : ContextIn A) (count size : BitVec 32) : Run (BitVec 32) := do
  storeU32 c count 0
  storeU32 c size 0
  return Errno.success

def clock? (id : BitVec 32) : Option Clock :=
  if id = 0 then some .realtime
  else if id = 1 then some .monotonic
  else none

/-- Nanoseconds on a clock; the monotonic one counts from the making of the guest. -/
def readClock (clock : Clock) : Run (BitVec 64) := do
  let now ← Run.ask (.clock clock)
  match clock with
  | .realtime => return BitVec.ofNat 64 now
  | .monotonic => do
    let host ← Run.host
    return host.elapsed now

def clockTime (c : ContextIn A) (id pointer : BitVec 32) : Run (BitVec 32) := do
  match clock? id with
  | none => return Errno.invalid
  | some clock =>
    let now ← readClock clock
    let m ← c.memory
    let m ← Run.ofExcept (m.edit (·.writeU64 pointer.toNat now))
    Run.setMemory m
    return Errno.success

def random (c : ContextIn A) (buffer length : BitVec 32) : Run (BitVec 32) := do
  let m ← c.memory
  let _ ← Run.ofExcept (checkBounds buffer.toNat length.toNat m.size)
  let bytes ← Run.ask (.random length.toNat)
  let m ← Run.ofExcept (m.edit (·.write buffer.toNat bytes.toList))
  Run.setMemory m
  return Errno.success

def answer (x : Run (BitVec 32)) : Run (List Val) := do
  let word ← x
  return [.i32 word]

def run (c : ContextIn A) (call : WasiCall) (args : List Val) : Run (List Val) :=
  match call with
  | fdWrite => match args with
    | [.i32 fd, .i32 iovs, .i32 count, .i32 nwritten] => answer (write c fd iovs count nwritten)
    | _ => Run.fault .malformed
  | procExit => match args with
    | [.i32 code] => Run.fail (.guestExit code.toInt)
    | _ => Run.fault .malformed
  | environSizesGet | argsSizesGet => match args with
    | [.i32 count, .i32 size] => answer (emptySizes c count size)
    | _ => Run.fault .malformed
  | environGet | argsGet => match args with
    | [.i32 _, .i32 _] => return [.i32 Errno.success]
    | _ => Run.fault .malformed
  | clockTimeGet => match args with
    | [.i32 id, .i64 _, .i32 pointer] => answer (clockTime c id pointer)
    | _ => Run.fault .malformed
  | randomGet => match args with
    | [.i32 buffer, .i32 length] => answer (random c buffer length)
    | _ => Run.fault .malformed
  | fdRead => Run.unsupported fdRead.name
  | fdClose => Run.unsupported fdClose.name
  | fdSeek => Run.unsupported fdSeek.name

end WasiCall

end GuestHost
