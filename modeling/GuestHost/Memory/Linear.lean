import GuestHost.Memory.Word

/-!
Linear memory: a memory that consists of whole pages and grows by pages up to a limit.
-/

namespace GuestHost

def pageSize : Nat := 65536

def maxPages : Nat := 65536

structure LinearMemory extends Memory where
  pages : Nat
  limit : Nat
  size_eq : toMemory.size = pages * pageSize
  deriving DecidableEq, Repr

namespace LinearMemory

def new (pages : Nat) (max : Option Nat) : LinearMemory :=
  ⟨Memory.zeros (pages * pageSize), pages, min (max.getD maxPages) maxPages, rfl⟩

def put (m : LinearMemory) (contents : Memory) : LinearMemory :=
  if h : contents.size = m.toMemory.size then { m with toMemory := contents, size_eq := h ▸ m.size_eq }
  else m

def edit (m : LinearMemory) (f : Memory → Except HostError Memory) : Except HostError LinearMemory :=
  (f m.toMemory).map m.put

/-- New pages hold zero; a growth beyond the limit is refused. -/
def grow (m : LinearMemory) (delta : Nat) : Option LinearMemory :=
  if m.pages + delta ≤ m.limit then
    some { m with
      toMemory := ⟨m.size + delta * pageSize, m.touched, Nat.le_add_right_of_le m.touched_le⟩
      pages := m.pages + delta
      size_eq := by simp [m.size_eq, Nat.add_mul] }
  else none

end LinearMemory

end GuestHost
