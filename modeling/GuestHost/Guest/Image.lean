import GuestHost.Effect.HostFunction
import GuestHost.Import.Linker
import GuestHost.Wasm.Exec

/-!
Linked modules. Each function index stands for a function of the host or of the module, and calls go
back and forth between the two.
-/

namespace GuestHost

open Wasm (FuncType Val Func Module Export ExternKind Fault)

inductive Code
  | host (type : FuncType) (func : HostFunction)
  | guest (func : Func)

def Code.type : Code → FuncType
  | host type _ => type
  | guest func => func.type

structure Image where
  code : List Code
  exports : List Export
  maxDepth : Nat

/-- Who calls a function: code of the guest, or whoever holds the guest from outside. -/
inductive Caller
  | guest
  | embedder
  deriving DecidableEq, Repr

namespace Image

def exports? (i : Image) (name : String) (kind : ExternKind) : Option Nat :=
  (i.exports.find? fun e => e.name = name ∧ e.kind = kind).map (·.index)

def memoryName : String := "memory"

def tableName : String := "__indirect_function_table"

def exportsMemory (i : Image) : Bool := (i.exports? memoryName .memory).isSome

def exportsTable (i : Image) : Bool := (i.exports? tableName .table).isSome

section

variable {A : Type → Type}

def context (i : Image) (caller : Caller) (callee : Nat → Option (CalleeIn A)) : ContextIn A where
  memoryExported := caller = .guest && i.exportsMemory
  tableExported := caller = .guest && i.exportsTable
  callee := callee

variable [Monad A] [Watch A]

/-- The function at an index as it runs with `depth` further calls below it. A host function is
called on behalf of `caller`; what it calls in turn is entered from outside the guest. -/
def calleeIn (i : Image) : Nat → Caller → Nat → Option (CalleeIn A)
  | 0, _, func =>
    (i.code[func]?).map fun c => ⟨c.type, fun _ => RunIn.plain (Run.fault .stackExhausted)⟩
  | depth + 1, caller, func =>
    (i.code[func]?).map fun c =>
      ⟨c.type, fun args =>
        match c with
        | .host _ f => f.runIn (i.context caller (i.calleeIn depth .embedder)) args
        | .guest fn => fn.exec (i.calleeIn depth .guest) args⟩

theorem exists_code_of_calleeIn (i : Image) {depth : Nat} {caller : Caller} {func : Nat}
    {c : CalleeIn A} (known : i.calleeIn depth caller func = some c) :
    ∃ code, i.code[func]? = some code ∧ code.type = c.type := by
  cases depth with
  | zero =>
    obtain ⟨code, found, rfl⟩ := Option.map_eq_some_iff.mp known
    exact ⟨code, found, rfl⟩
  | succ depth =>
    obtain ⟨code, found, rfl⟩ := Option.map_eq_some_iff.mp known
    exact ⟨code, found, rfl⟩

def callIn (i : Image) (caller : Caller) (depth func : Nat) (args : List Val) :
    RunIn A (List Val) :=
  match i.calleeIn depth caller func with
  | some c => c.call args
  | none => RunIn.plain (Run.fault .malformed)

variable (i : Image) {func : Nat}

theorem callIn_host {type : FuncType} {f : HostFunction}
    (known : i.code[func]? = some (.host type f)) (caller : Caller) (depth : Nat)
    (args : List Val) : (i.callIn caller (depth + 1) func args : RunIn A _) =
      f.runIn (i.context caller (i.calleeIn depth .embedder)) args := by
  rw [callIn, calleeIn, known]
  rfl

theorem callIn_guest {fn : Func} (known : i.code[func]? = some (.guest fn)) (caller : Caller)
    (depth : Nat) (args : List Val) : (i.callIn caller (depth + 1) func args : RunIn A _) =
      fn.exec (i.calleeIn depth .guest) args := by
  rw [callIn, calleeIn, known]
  rfl

end

def callee (i : Image) (depth : Nat) (caller : Caller) (func : Nat) : Option Callee :=
  i.calleeIn depth caller func

def callAs (i : Image) (caller : Caller) (depth func : Nat) (args : List Val) : Run (List Val) :=
  i.callIn caller depth func args

def call (i : Image) (caller : Caller) (func : Nat) (args : List Val) : Run (List Val) :=
  i.callAs caller (i.maxDepth + 1) func args

/-- Link a module: every import has to be defined, and then every type has to agree. -/
def link (m : Module) (l : Linker HostFunction) : Except Fault Image := do
  let found ← m.imports.mapM fun i => match l.find? ⟨i.ns, i.name⟩ with
    | some d => .ok (i, d)
    | none => .error .unknownImport
  let code ← found.mapM fun (i, d) =>
    if i.desc = .func d.type then .ok (Code.host d.type d.func) else .error .incompatibleImport
  return ⟨code ++ m.funcs.map .guest, m.exports, m.maxDepth⟩

end Image

end GuestHost
