import GuestHost.Wasm.Module

/-!
Linkers: the functions a module can be linked with, each under a namespace and a name.
-/

namespace GuestHost

structure Key where
  ns : String
  name : String
  deriving DecidableEq, Repr

structure Definition (φ : Type) where
  key : Key
  type : Wasm.FuncType
  func : φ
  deriving DecidableEq, Repr

structure Linker (φ : Type) where
  definitions : List (Definition φ) := []
  deriving DecidableEq, Repr

namespace Linker

variable {φ : Type}

def find? (l : Linker φ) (key : Key) : Option (Definition φ) :=
  l.definitions.find? (·.key = key)

def defines (l : Linker φ) (key : Key) : Bool := (l.find? key).isSome

def refusal (key : Key) : String := s!"import of `{key.ns}::{key.name}` defined twice"

/-- A key is defined once; a second definition is refused. -/
def define (l : Linker φ) (d : Definition φ) : Except String (Linker φ) :=
  if l.defines d.key then .error (refusal d.key) else .ok ⟨l.definitions ++ [d]⟩

end Linker

end GuestHost
