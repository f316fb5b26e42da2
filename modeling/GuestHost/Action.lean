import GuestHost.Config.Error
import GuestHost.HostState
import GuestHost.Log.Record
import GuestHost.Wasm.Module

/-!
Computations that deal with the outside world. All a computation can do there is to ask, and what it
does next depends on nothing but its own values and the answers; so a computation is a tree, and two
equal trees behave alike whatever the outside world answers.
-/

namespace GuestHost

inductive Clock
  | realtime
  | monotonic
  deriving DecidableEq, Repr

inductive Request
  | pid
  | clock (clock : Clock)
  | random (count : Nat)
  | offer (stream : OutputStream) (bytes : List UInt8)
  | log (record : Log.Record)
  | readFile (path : String)
  | loadModule (path : String)
  deriving DecidableEq, Repr

/-- Clocks answer in nanoseconds, a stream whether it took the chunk, and a file that is no module
with none. -/
abbrev Request.Answer : Request → Type
  | pid => BitVec 32
  | clock _ => Nat
  | random count => Vector UInt8 count
  | offer _ _ => Bool
  | log _ => Unit
  | readFile _ => Except FileError (List UInt8)
  | loadModule _ => Except FileError (Option Wasm.Module)

inductive Action (α : Type) : Type
  | done (value : α)
  | ask (request : Request) (next : request.Answer → Action α)
  | exit (status : Nat)

namespace Action

variable {α β γ : Type}

def bind : Action α → (α → Action β) → Action β
  | done a, f => f a
  | ask q k, f => ask q fun answer => (k answer).bind f
  | exit status, _ => exit status

instance : Monad Action where
  pure := done
  bind := bind

@[simp] theorem pure_eq_done (a : α) : (pure a : Action α) = done a := rfl

@[simp] theorem bind_eq_bind (x : Action α) (f : α → Action β) : x >>= f = x.bind f := rfl

@[simp] theorem done_bind (a : α) (f : α → Action β) : (done a).bind f = f a := rfl

@[simp] theorem exit_bind (status : Nat) (f : α → Action β) :
    (exit status).bind f = exit status := rfl

@[simp] theorem ask_bind (q : Request) (k : q.Answer → Action α) (f : α → Action β) :
    (ask q k).bind f = ask q fun answer => (k answer).bind f := rfl

@[simp] theorem bind_done (x : Action α) : x.bind done = x := by
  induction x with
  | done a => rfl
  | ask q k ih => simp [ih]
  | exit status => rfl

theorem bind_assoc (x : Action α) (f : α → Action β) (g : β → Action γ) :
    (x.bind f).bind g = x.bind fun a => (f a).bind g := by
  induction x with
  | done a => rfl
  | ask q k ih => simp [ih]
  | exit status => rfl

instance : LawfulMonad Action :=
  LawfulMonad.mk' Action (fun x => bind_done x) (fun _ _ => rfl) bind_assoc

def request (q : Request) : Action q.Answer := ask q done

def log (level : Log.Level) (target text : String) : Action Unit :=
  request (.log ⟨level, target, text⟩)

def print (stream : OutputStream) (text : String) : Action Unit :=
  ask (.offer stream text.toUTF8.toList) fun _ => done ()

end Action

end GuestHost
