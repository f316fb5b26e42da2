import GuestHost.Action

/-!
Running guest code. A run changes the store of one guest, may ask the outside world, and ends with a
value or stops with the reason; what it changed before it stopped stays changed.
-/

namespace GuestHost

/-- What a guest has: the part that its code can reach, and the state that the host keeps for it. -/
structure Store extends Wasm.Space where
  host : HostState
  deriving DecidableEq, Repr

inductive Stop
  | host (error : HostError)
  | fault (fault : Wasm.Fault)
  deriving DecidableEq, Repr

/-- Runs whose actions take place in the monad `A`. -/
abbrev RunIn (A : Type → Type) (α : Type) := ExceptT Stop (StateT Store A) α

abbrev Run (α : Type) := ExceptT Stop (StateT Store Action) α

namespace Run

variable {α : Type}

def startAt (x : Run α) (s : Store) : Action (Except Stop α × Store) := x.run.run s

def action (x : Action α) : Run α := liftM (m := StateT Store Action) (liftM x)

def ask (q : Request) : Run q.Answer := action (Action.request q)

def log (level : Log.Level) (target text : String) : Run Unit := action (Action.log level target text)

def fault (f : Wasm.Fault) : Run α := throw (.fault f)

def fail (e : HostError) : Run α := throw (.host e)

def ofExcept : Except HostError α → Run α
  | .ok a => pure a
  | .error e => fail e

def store : Run Store := get

def host : Run HostState := do return (← get).host

def space : Run Wasm.Space := do return (← get).toSpace

def setSpace (space : Wasm.Space) : Run Unit := modify fun s => { s with toSpace := space }

def setMemory (m : LinearMemory) : Run Unit := modify fun s => { s with memory := some m }

def modifyHost (f : HostState → HostState) : Run Unit :=
  modify fun s => { s with host := f s.host }

variable {β : Type} (s : Store)

@[simp] theorem startAt_pure (a : α) : (pure a : Run α).startAt s = .done (.ok a, s) := rfl

/-- What follows runs from the store that was left, unless the run has stopped. -/
theorem startAt_bind (x : Run α) (f : α → Run β) :
    (x >>= f).startAt s = (x.startAt s).bind fun
      | (.ok a, s) => (f a).startAt s
      | (.error stop, s) => .done (.error stop, s) := by
  refine congrArg (Action.bind (x.startAt s)) (funext fun (r, s) => ?_)
  cases r <;> rfl

theorem startAt_map (f : α → β) (x : Run α) :
    (f <$> x).startAt s = (x.startAt s).bind fun
      | (.ok a, s) => .done (.ok (f a), s)
      | (.error stop, s) => .done (.error stop, s) := by
  rw [← bind_pure_comp, startAt_bind]
  rfl

@[simp] theorem startAt_fault (f : Wasm.Fault) :
    (fault f : Run α).startAt s = .done (.error (.fault f), s) := rfl

@[simp] theorem startAt_fail (e : HostError) :
    (fail e : Run α).startAt s = .done (.error (.host e), s) := rfl

@[simp] theorem startAt_action (x : Action α) :
    (action x).startAt s = x.bind fun a => .done (.ok a, s) := by
  change (x.bind fun a => Action.done (a, s)).bind
    (fun p => Action.done ((.ok p.1 : Except Stop α), p.2)) = _
  simp [Action.bind_assoc]

@[simp] theorem startAt_ask (q : Request) :
    (ask q).startAt s = .ask q fun answer => .done (.ok answer, s) := by
  simp [ask, Action.request]

@[simp] theorem startAt_ofExcept_ok (a : α) :
    (ofExcept (.ok a)).startAt s = .done (.ok a, s) := rfl

@[simp] theorem startAt_ofExcept_error (e : HostError) :
    (ofExcept (.error e : Except HostError α)).startAt s = .done (.error (.host e), s) := rfl

@[simp] theorem startAt_log (level : Log.Level) (target text : String) :
    (log level target text).startAt s =
      .ask (.log ⟨level, target, text⟩) fun _ => .done (.ok (), s) := by
  simp [log, Action.log, Action.request]

@[simp] theorem startAt_store : store.startAt s = .done (.ok s, s) := rfl

@[simp] theorem startAt_host : host.startAt s = .done (.ok s.host, s) := rfl

@[simp] theorem startAt_space : space.startAt s = .done (.ok s.toSpace, s) := rfl

@[simp] theorem startAt_setSpace (space : Wasm.Space) :
    (setSpace space).startAt s = .done (.ok (), { s with toSpace := space }) := rfl

@[simp] theorem startAt_setMemory (m : LinearMemory) :
    (setMemory m).startAt s = .done (.ok (), { s with memory := some m }) := rfl

@[simp] theorem startAt_modifyHost (f : HostState → HostState) :
    (modifyHost f).startAt s = .done (.ok (), { s with host := f s.host }) := rfl

end Run

/-- A function as its callers see it. -/
structure CalleeIn (A : Type → Type) where
  type : Wasm.FuncType
  call : List Wasm.Val → RunIn A (List Wasm.Val)

abbrev Callee := CalleeIn Action

/-- What a host function can reach beyond its arguments: the exports of its caller, which are none
when it is entered from outside the guest, and the functions that table slots refer to. -/
structure ContextIn (A : Type → Type) where
  memoryExported : Bool
  tableExported : Bool
  callee : Nat → Option (CalleeIn A)

abbrev Context := ContextIn Action

namespace ContextIn

variable {A : Type → Type} (c : ContextIn A)

def memory : Run LinearMemory := do
  let s ← Run.store
  match c.memoryExported, s.memory with
  | true, some m => return m
  | _, _ => Run.fail .noMemory

def table? : Run (Option (Array (Option Nat))) := do
  let s ← Run.store
  return if c.tableExported then s.table else none

def memoryIn (s : Store) : Option LinearMemory :=
  if c.memoryExported then s.memory else none

@[simp] theorem startAt_memory (s : Store) :
    c.memory.startAt s = .done (match c.memoryIn s with
      | some m => (.ok m, s)
      | none => (.error (.host .noMemory), s)) := by
  obtain ⟨memoryExported, _, _⟩ := c
  rcases s with ⟨⟨_ | m, _, _⟩, _⟩ <;> cases memoryExported <;> rfl

@[simp] theorem startAt_table? (s : Store) :
    c.table?.startAt s = .done (.ok (if c.tableExported then s.table else none), s) := rfl

end ContextIn

end GuestHost
