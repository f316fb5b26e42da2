import GuestHost.Guest.Basic
import Mathlib.Data.Option.Basic

/-!
Relations between runs in two monads that guests keep. Code of the guest sees nothing of the host, and
a run of it is as its tree says. So a relation that holds of a look at the guest's part of the store, a
change there and a fault, and of runs in a row, holds of all code whose callees are related; and
through the functions that the host offers it goes on to whole calls.
-/

namespace GuestHost

open Wasm (Val Func Module Body Space)

variable {A B : Type → Type}

/-- Callees of one type whose runs from arguments of that type are related. -/
structure CalleeRel (Rel : (α : Type) → RunIn A α → RunIn B α → Prop) (c : CalleeIn A)
    (c' : CalleeIn B) : Prop where
  type : c.type = c'.type
  call (args : List Val) : args.map Val.type = c'.type.params → Rel _ (c.call args) (c'.call args)

structure ContextRel (Rel : (α : Type) → RunIn A α → RunIn B α → Prop) (c : ContextIn A)
    (c' : ContextIn B) : Prop where
  memory : c.memoryExported = c'.memoryExported
  table : c.tableExported = c'.tableExported
  callee (func : Nat) : Option.Rel (CalleeRel Rel) (c.callee func) (c'.callee func)

variable [Monad A] [Watch A] [Monad B] [Watch B]

/-- What a relation has to satisfy to be kept by code of the guest. -/
structure Simulation (Rel : (α : Type) → RunIn A α → RunIn B α → Prop) : Prop where
  pure {α : Type} (a : α) : Rel α (Pure.pure a) (Pure.pure a)
  bind {α β : Type} {x : RunIn A α} {y : RunIn B α} {f : α → RunIn A β} {g : α → RunIn B β} :
    Rel α x y → (∀ a, Rel β (f a) (g a)) → Rel β (x >>= f) (y >>= g)
  fault {α : Type} (f : Wasm.Fault) : f.isLinking = false →
    Rel α (RunIn.plain (Run.fault f)) (RunIn.plain (Run.fault f))
  space : Rel Space (RunIn.plain Run.space) (RunIn.plain Run.space)
  setSpace (space : Space) :
    Rel Unit (RunIn.plain (Run.setSpace space)) (RunIn.plain (Run.setSpace space))
  entered (fn : Func) (args : List Val) :
    Rel Unit (RunIn.note (.entered fn args)) (RunIn.note (.entered fn args))

/-- The functions of the host that the image holds keep the relation, called with as many arguments
as they take. -/
def Image.HostRel (Rel : (α : Type) → RunIn A α → RunIn B α → Prop) (i : Image) : Prop :=
  ∀ type f, Code.host type f ∈ i.code → ∀ (c : ContextIn A) (c' : ContextIn B), ContextRel Rel c c' →
    ∀ args : List Val, args.map Val.type = type.params → Rel _ (f.runIn c args) (f.runIn c' args)

namespace Simulation

variable {Rel : (α : Type) → RunIn A α → RunIn B α → Prop} {α : Type}
  {callee : Nat → Option (CalleeIn A)} {callee' : Nat → Option (CalleeIn B)}

theorem callFrom (h : Simulation Rel)
    (related : ∀ func, Option.Rel (CalleeRel Rel) (callee func) (callee' func)) (func : Nat)
    (args : List Val) : Rel _ (Wasm.callFrom callee func args) (Wasm.callFrom callee' func args) := by
  unfold Wasm.callFrom
  have same := related func
  generalize callee func = c, callee' func = c' at same ⊢
  cases same with
  | none => exact h.fault _ rfl
  | @some c c' same =>
    dsimp only
    rw [same.type]
    split
    · rename_i typed
      exact same.call args typed
    · exact h.fault _ rfl

/-- All code keeps the relation, by induction on its tree. -/
theorem exec (h : Simulation Rel)
    (related : ∀ func, Option.Rel (CalleeRel Rel) (callee func) (callee' func)) (x : Body α) :
    Rel α (x.exec callee) (x.exec callee') := by
  induction x with
  | done a => exact h.pure a
  | fault f running => exact h.fault f running
  | look next ih => exact h.bind h.space ih
  | put space next ih => exact h.bind (h.setSpace space) fun _ => ih
  | call func args next ih => exact h.bind (h.callFrom related func args) ih

theorem checked (h : Simulation Rel) (fn : Func) (results : List Val) :
    Rel _ (fn.checked results) (fn.checked results) := by
  unfold Func.checked
  split
  · exact h.pure results
  · exact h.fault _ rfl

theorem body (h : Simulation Rel)
    (related : ∀ func, Option.Rel (CalleeRel Rel) (callee func) (callee' func)) (fn : Func)
    (args : List Val) :
    Rel _ ((fn.body args).exec callee >>= fn.checked) ((fn.body args).exec callee' >>= fn.checked) :=
  h.bind (h.exec related _) (h.checked fn)

theorem func (h : Simulation Rel)
    (related : ∀ func, Option.Rel (CalleeRel Rel) (callee func) (callee' func)) (fn : Func)
    (args : List Val) : Rel _ (fn.exec callee args) (fn.exec callee' args) :=
  h.bind (h.entered fn args) fun _ => h.body related fn args

theorem dispatch (h : Simulation Rel) (t : Trampoline) {c : CalleeIn A} {c' : CalleeIn B}
    (same : CalleeRel Rel c c') (args : List Val) :
    Rel _ (t.dispatchIn c args) (t.dispatchIn c' args) := by
  unfold Trampoline.dispatchIn
  rw [same.type]
  split
  · exact h.fault _ rfl
  · split
    · exact h.fault _ rfl
    · split
      · exact h.fault _ rfl
      · rename_i typed
        apply h.bind (same.call args (not_not.mp typed).symm)
        intro results
        split
        · exact h.fault _ rfl
        · exact h.pure _

/-! Images and the bringing up of a guest -/

variable {i : Image}

/-- What is related one call further down is related here. -/
theorem callee_succ (h : Simulation Rel) (host : i.HostRel Rel) {d d' : Nat}
    (related : ∀ caller func,
      Option.Rel (CalleeRel Rel) (i.calleeIn d caller func) (i.calleeIn d' caller func))
    (caller : Caller) (func : Nat) :
    Option.Rel (CalleeRel Rel) (i.calleeIn (d + 1) caller func)
      (i.calleeIn (d' + 1) caller func) := by
  rw [Image.calleeIn, Image.calleeIn]
  cases found : i.code[func]? with
  | none => exact .none
  | some code =>
    refine .some ⟨rfl, fun args typed => ?_⟩
    cases code with
    | host type f =>
      exact host type f (List.mem_of_getElem? found) _ _ ⟨rfl, rfl, related .embedder⟩ args typed
    | guest fn => exact h.func (related .guest) fn args

theorem imageCallee (h : Simulation Rel) (host : i.HostRel Rel) (d : Nat) (caller : Caller)
    (func : Nat) :
    Option.Rel (CalleeRel Rel) (i.calleeIn d caller func) (i.calleeIn d caller func) := by
  induction d generalizing caller func with
  | zero =>
    rw [Image.calleeIn, Image.calleeIn]
    cases i.code[func]? with
    | none => exact .none
    | some code => exact .some ⟨rfl, fun _ _ => h.fault _ rfl⟩
  | succ d ih => exact h.callee_succ host ih caller func

/-- The callees may be those of two images. -/
theorem callIn (h : Simulation Rel) {i i' : Image} {d d' func : Nat} {caller : Caller}
    (same : Option.Rel (CalleeRel Rel) (i.calleeIn d caller func) (i'.calleeIn d' caller func))
    {args : List Val}
    (typed : ∀ code, i'.code[func]? = some code → args.map Val.type = code.type.params) :
    Rel _ (i.callIn caller d func args) (i'.callIn caller d' func args) := by
  have type {c : CalleeIn B} (known : i'.calleeIn d' caller func = some c) :
      args.map Val.type = c.type.params := by
    obtain ⟨code, found, type⟩ := i'.exists_code_of_calleeIn known
    rw [← type]
    exact typed code found
  unfold Image.callIn
  generalize (i.calleeIn d caller func : Option (CalleeIn A)) = c,
    (i'.calleeIn d' caller func : Option (CalleeIn B)) = c' at same type ⊢
  cases same with
  | none => exact h.fault _ rfl
  | some same => exact same.call args (type rfl)

theorem call (h : Simulation Rel) (host : i.HostRel Rel) (caller : Caller) (d func : Nat)
    (args : List Val)
    (typed : ∀ code, i.code[func]? = some code → args.map Val.type = code.type.params) :
    Rel _ (i.callIn caller d func args) (i.callIn caller d func args) :=
  h.callIn (h.imageCallee host d caller func) typed

theorem startUp (h : Simulation Rel) (host : i.HostRel Rel) (m : Module) :
    Rel _ (Guest.startUpIn m i) (Guest.startUpIn m i) :=
  h.exec (h.imageCallee host _ .guest) m.opening

end Simulation

end GuestHost
