import GuestHost.Memory.Linear
import GuestHost.Session.Reply

/-!
Requests of an embedder to a memory.
-/

namespace GuestHost

inductive MemoryRequest
  | size
  | read (offset length : Nat)
  | any (offset length : Nat)
  | write (offset : Nat) (bytes : List UInt8)
  | fill (offset length : Nat) (byte : UInt8)
  | readU32 (offset : Nat)
  | writeU32 (offset : Nat) (word : BitVec 32)
  | writeU64 (offset : Nat) (word : BitVec 64)
  | copy (dest src length : Nat)
  deriving DecidableEq, Repr

namespace MemoryRequest

def answer {α : Type} (f : α → Reply) : Except HostError α → Reply
  | .ok a => f a
  | .error e => .hostError e

def change (m : Memory) : Except HostError Memory → Reply × Memory
  | .ok m => (.nothing, m)
  | .error e => (.hostError e, m)

def serve (m : Memory) : MemoryRequest → Reply × Memory
  | size => (.size m.size, m)
  | read offset length => (answer .bytes (m.read offset length), m)
  | any offset length =>
    (answer (fun bytes => .flag (bytes.any (· ≠ 0))) (m.read offset length), m)
  | write offset bytes => change m (m.write offset bytes)
  | fill offset length byte => change m (m.fill offset length byte)
  | readU32 offset => (answer .word (m.readU32 offset), m)
  | writeU32 offset word => change m (m.writeU32 offset word)
  | writeU64 offset word => change m (m.writeU64 offset word)
  | copy dest src length => change m (m.copyWithin dest src length)

def serveAll (m : Memory) : List MemoryRequest → List Reply × Memory
  | [] => ([], m)
  | q :: qs =>
    let (reply, m) := serve m q
    let (replies, m) := serveAll m qs
    (reply :: replies, m)

end MemoryRequest

end GuestHost
