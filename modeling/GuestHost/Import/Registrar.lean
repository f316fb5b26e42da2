import GuestHost.Error
import GuestHost.Import.HostFunction
import GuestHost.Import.Linker

/-!
Registrars put functions into a linker and remember what they put where. A function goes under each
of its names, the first of which stands for it.
-/

namespace GuestHost

structure Binding where
  key : Key
  shim : String
  deriving DecidableEq, Repr

structure Registrar (φ : Type) where
  wasi : Bool
  linker : Linker φ
  bindings : List Binding := []
  deriving DecidableEq, Repr

namespace Registrar

variable {φ : Type}

def claims (r : Registrar φ) (key : Key) : Bool := r.bindings.any (·.key = key)

/-- Claim a key and define it. A key that was claimed before is refused; the claim stays when the
linker refuses the definition. -/
def bind (r : Registrar φ) (key : Key) (shim : String) (type : Wasm.FuncType) (func : φ) :
    Registrar φ × Except HostError Unit :=
  if r.claims key then (r, .error (.duplicateImport key.ns key.name))
  else
    let r : Registrar φ := { r with bindings := r.bindings ++ [⟨key, shim⟩] }
    match r.linker.define ⟨key, type, func⟩ with
    | .ok linker => ({ r with linker := linker }, .ok ())
    | .error reason => (r, .error (.link key.ns key.name reason))

def bindAll (ns shim : String) (type : Wasm.FuncType) (func : φ) :
    List String → Registrar φ → Registrar φ × Except HostError Unit
  | [], r => (r, .ok ())
  | name :: names, r =>
    match r.bind ⟨ns, name⟩ shim type func with
    | (r, .ok ()) => bindAll ns shim type func names r
    | (r, .error e) => (r, .error e)

def register (r : Registrar φ) (ns : String) (names : List String) (type : Wasm.FuncType)
    (func : φ) : Registrar φ × Except HostError Unit :=
  bindAll ns (names.headD "") type func names r

def registerAll (embed : HostFunction → φ) :
    List HostFunction → Registrar φ → Registrar φ × Except HostError Unit
  | [], r => (r, .ok ())
  | f :: fs, r =>
    match r.register f.ns f.names f.type (embed f) with
    | (r, .ok ()) => registerAll embed fs r
    | (r, .error e) => (r, .error e)

def install (r : Registrar φ) (embed : HostFunction → φ) : Registrar φ × Except HostError Unit :=
  registerAll embed (HostFunction.set r.wasi) r

def shimFor? (r : Registrar φ) (key : Key) : Option String :=
  (r.bindings.find? (·.key = key)).map (·.shim)

def serves (r : Registrar φ) (ns : String) : Bool :=
  ns = HostFunction.env || (r.wasi && ns = HostFunction.wasiNs)

/-- Every import from a namespace that is served has to be bound; the first that is not is named. -/
def checkImports (r : Registrar φ) (imports : List Wasm.Import) : Except HostError Unit :=
  match imports.find? fun i => r.serves i.ns && (r.shimFor? ⟨i.ns, i.name⟩).isNone with
  | some i => .error (.missingImport i.ns i.name)
  | none => .ok ()

end Registrar

end GuestHost
