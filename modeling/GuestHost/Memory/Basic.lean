import GuestHost.Error

/-!
Byte-addressed memory with checked access. A request names a range; it is served when the whole
range lies below the size and refused before any byte is touched otherwise.
-/

namespace GuestHost

def checkBounds (offset length size : Nat) : Except HostError (Nat × Nat) :=
  if offset + length ≤ size then .ok (offset, offset + length)
  else .error (.outOfBounds offset length size)

/-- Cells beyond `touched` have never been written and hold zero. -/
structure Memory where
  size : Nat
  touched : Array UInt8
  touched_le : touched.size ≤ size
  deriving DecidableEq, Repr

namespace Memory

def zeros (size : Nat) : Memory := ⟨size, #[], Nat.zero_le _⟩

def ofBytes (bytes : List UInt8) : Memory := ⟨bytes.length, bytes.toArray, by simp⟩

def cell (m : Memory) (i : Nat) : UInt8 := m.touched.getD i 0

def slice (m : Memory) (offset length : Nat) : List UInt8 :=
  (List.range' offset length).map m.cell

def toList (m : Memory) : List UInt8 := m.slice 0 m.size

def fillFrom (cells : Array UInt8) (i : Nat) : List UInt8 → Array UInt8
  | [] => cells
  | b :: bs => fillFrom (cells.setIfInBounds i b) (i + 1) bs

theorem size_fillFrom (cells : Array UInt8) (i : Nat) (bytes : List UInt8) :
    (fillFrom cells i bytes).size = cells.size := by
  induction bytes generalizing cells i with
  | nil => rfl
  | cons b bs ih => simp [fillFrom, ih]

/-- Overwrite the cells from `offset` on; what would fall beyond the size is dropped. -/
def store (m : Memory) (offset : Nat) : List UInt8 → Memory
  | [] => m
  | b :: bs =>
    let reach := min (offset + bs.length + 1) m.size
    ⟨m.size, fillFrom (m.touched ++ Array.replicate (reach - m.touched.size) 0) offset (b :: bs), by
      have := m.touched_le
      rw [size_fillFrom]
      simp
      omega⟩

@[simp] theorem size_store (m : Memory) (offset : Nat) (bytes : List UInt8) :
    (m.store offset bytes).size = m.size := by
  cases bytes <;> rfl

def read (m : Memory) (offset length : Nat) : Except HostError (List UInt8) :=
  (checkBounds offset length m.size).map fun _ => m.slice offset length

def write (m : Memory) (offset : Nat) (bytes : List UInt8) : Except HostError Memory :=
  (checkBounds offset bytes.length m.size).map fun _ => m.store offset bytes

def fill (m : Memory) (offset length : Nat) (byte : UInt8) : Except HostError Memory :=
  (checkBounds offset length m.size).map fun _ => m.store offset (List.replicate length byte)

/-- The source is read in full before anything is written, so the ranges may overlap. -/
def copyWithin (m : Memory) (dest src length : Nat) : Except HostError Memory := do
  let _ ← checkBounds dest length m.size
  let bytes ← m.read src length
  m.write dest bytes

end Memory

end GuestHost
