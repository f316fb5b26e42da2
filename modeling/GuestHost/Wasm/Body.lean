import GuestHost.Memory.Linear
import GuestHost.Wasm.Fault
import GuestHost.Wasm.Types

/-!
Code of a guest. All that it can do is to look at the guest's own part of the store, to change it, to
call functions, and to fail; what it does next depends on nothing but its own values and on what it
was shown. So code is a tree, and what holds of all trees holds of all code.
-/

namespace GuestHost.Wasm

/-- What code of the guest can reach of a store. Table slots hold function indices. -/
structure Space where
  memory : Option LinearMemory := none
  table : Option (Array (Option Nat)) := none
  globals : List Val := []
  deriving DecidableEq, Repr

inductive Body (α : Type) : Type
  | done (value : α)
  | fault (f : Fault) (running : f.isLinking = false)
  | look (next : Space → Body α)
  | put (space : Space) (next : Body α)
  | call (func : Nat) (args : List Val) (next : List Val → Body α)

namespace Body

variable {α β : Type}

def bind : Body α → (α → Body β) → Body β
  | done a, f => f a
  | fault e running, _ => fault e running
  | look k, f => look fun space => (k space).bind f
  | put space k, f => put space (k.bind f)
  | call func args k, f => call func args fun results => (k results).bind f

instance : Monad Body where
  pure := done
  bind := bind

def space : Body Space := look done

def setSpace (space : Space) : Body Unit := put space (done ())

def callFunc (func : Nat) (args : List Val) : Body (List Val) := call func args done

def malformed : Body α := fault .malformed rfl

/-- Fail. No code does so for a reason that concerns linking. -/
def trap (f : Fault) : Body α :=
  if running : f.isLinking = false then fault f running else malformed

def memory : Body LinearMemory := do
  match (← space).memory with
  | some m => return m
  | none => malformed

def setMemory (m : LinearMemory) : Body Unit := do
  setSpace { ← space with memory := some m }

def table : Body (Array (Option Nat)) := do
  match (← space).table with
  | some slots => return slots
  | none => malformed

def setTable (slots : Array (Option Nat)) : Body Unit := do
  setSpace { ← space with table := some slots }

def read (offset length : Nat) : Body (List UInt8) := do
  match (← memory).read offset length with
  | .ok bytes => return bytes
  | .error _ => trap .memoryBounds

def write (offset : Nat) (bytes : List UInt8) : Body Unit := do
  match (← memory).edit (·.write offset bytes) with
  | .ok m => setMemory m
  | .error _ => trap .memoryBounds

def fill (offset length : Nat) (byte : UInt8) : Body Unit := do
  match (← memory).edit (·.fill offset length byte) with
  | .ok m => setMemory m
  | .error _ => trap .memoryBounds

def setSlots (slots : Array (Option Nat)) (i : Nat) : List (Option Nat) → Array (Option Nat)
  | [] => slots
  | f :: fs => setSlots (slots.setIfInBounds i f) (i + 1) fs

def writeSlots (offset : Nat) (funcs : List (Option Nat)) : Body Unit := do
  let slots ← table
  if offset + funcs.length ≤ slots.size then setTable (setSlots slots offset funcs)
  else trap .tableBounds

end Body

end GuestHost.Wasm
