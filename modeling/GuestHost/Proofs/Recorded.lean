import GuestHost.Proofs.Endings
import GuestHost.Proofs.Linked

/-!
Recorded runs. The same guests and host functions run in a monad that takes down every call that is
entered. A recorded computation goes along with the one without a record where they ask the same and
end alike.
-/

namespace GuestHost

open Wasm (Val Module)

abbrev History := List Event

abbrev Recorder := StateT History Action

instance : Watch Recorder := ⟨fun told x h => x.bind fun a => .done (a, h ++ told a)⟩

/-- Runs with a recorder. What was taken down before a run stopped stays so. -/
abbrev Recorded (α : Type) := RunIn Recorder α

namespace Recorded

variable {α β : Type}

def startAt (x : Recorded α) (s : Store) (h : History) :
    Action ((Except Stop α × Store) × History) := RunIn.startAt x s h

variable (s : Store) (h : History)

theorem startAt_bind (x : Recorded α) (f : α → Recorded β) :
    startAt (x >>= f) s h = (startAt x s h).bind fun
      | ((.ok a, s), h) => startAt (f a) s h
      | ((.error stop, s), h) => .done ((.error stop, s), h) := by
  refine congrArg (Action.bind (startAt x s h)) (funext fun ((r, s), h) => ?_)
  cases r <;> rfl

theorem startAt_watch (x : Run α) (told : Store → Except Stop α → History) :
    startAt (RunIn.watch x told) s h =
      (x.startAt s).bind fun p => .done (p, h ++ told s p.1) := rfl

theorem startAt_plain (x : Run α) :
    startAt (RunIn.plain x) s h = (x.startAt s).bind fun p => .done (p, h) := by
  rw [RunIn.plain, startAt_watch, List.append_nil]

end Recorded

namespace Guest

abbrev Answer := Except GuestError (List (BitVec 64)) × Guest

def recordedCall (g : Guest) (h : History) (name : String) (args : List (BitVec 64)) :
    Action (Answer × History) := g.callIn (A := Recorder) name args h

def recordedLoad (m : Option Module) (config : Config) :
    Action (Except GuestError Guest × History) := loadIn (A := Recorder) m config []

theorem recordedCall_eq (g : Guest) (h : History) (name : String) (args : List (BitVec 64)) :
    g.recordedCall h name args = (match g.prepare name args with
      | .error e => return ((.error e, g), h)
      | .ok (func, vals) => do
        let ((result, store), h) ← Recorded.startAt
          (g.image.callIn .embedder (g.image.maxDepth + 1) func vals) g.store h
        return ((outcome result, { g with store := store }), h)) := by
  unfold recordedCall callIn
  cases g.prepare name args with
  | error e => rfl
  | ok run => rfl

end Guest

structure ExportCall where
  name : String
  args : List (BitVec 64)
  deriving DecidableEq, Repr

namespace Guest

def callAll (g : Guest) : List ExportCall → Action (List Answer)
  | [] => return []
  | c :: cs => do
    let (result, g) ← g.call c.name c.args
    let rest ← g.callAll cs
    return (result, g) :: rest

def life (m : Option Module) (config : Config) (calls : List ExportCall) :
    Action (Except GuestError Guest × List Answer) := do
  match ← load m config with
  | .error e => return (.error e, [])
  | .ok g => do
    let answers ← g.callAll calls
    return (.ok g, answers)

def recordedCalls (g : Guest) (h : History) : List ExportCall → Action (List (Answer × History))
  | [] => return []
  | c :: cs => do
    let ((result, g), h) ← g.recordedCall h c.name c.args
    let rest ← g.recordedCalls h cs
    return ((result, g), h) :: rest

def recordedLife (m : Option Module) (config : Config) (calls : List ExportCall) :
    Action ((Except GuestError Guest × History) × List (Answer × History)) := do
  match ← recordedLoad m config with
  | (.error e, h) => return ((.error e, h), [])
  | (.ok g, h) => do
    let answers ← g.recordedCalls h calls
    return ((.ok g, h), answers)

def unrecorded (x : (Except GuestError Guest × History) × List (Answer × History)) :
    Except GuestError Guest × List Answer := (x.1.1, x.2.map (·.1))

end Guest

namespace Action

variable {α β γ δ : Type} {P : α → β → Prop} {Q : γ → δ → Prop}

/-- Two computations that ask the same and end with related values. -/
inductive Along (P : α → β → Prop) : Action α → Action β → Prop
  | done {a : α} {b : β} (related : P a b) : Along P (.done a) (.done b)
  | ask (q : Request) {k : q.Answer → Action α} {l : q.Answer → Action β}
      (next : ∀ answer, Along P (k answer) (l answer)) : Along P (.ask q k) (.ask q l)
  | exit (status : Nat) : Along P (.exit status) (.exit status)

theorem Along.bind {x : Action α} {y : Action β} {f : α → Action γ} {g : β → Action δ}
    (h : Along P x y) (next : ∀ a b, P a b → Along Q (f a) (g b)) :
    Along Q (x.bind f) (y.bind g) := by
  induction h with
  | done related => exact next _ _ related
  | ask q _ ih => exact .ask q ih
  | exit status => exact .exit status

theorem Along.mono {P' : α → β → Prop} {x : Action α} {y : Action β} (h : Along P x y)
    (imp : ∀ a b, P a b → P' a b) : Along P' x y := by
  induction h with
  | done related => exact .done (imp _ _ related)
  | ask q _ ih => exact .ask q ih
  | exit status => exact .exit status

/-- A computation goes along with itself, whatever is made of its values on the left. -/
theorem Always.along {p : β → Prop} {x : Action β} (h : x.Always p) (f : β → α) :
    Along (fun a b => a = f b ∧ p b) (x.bind fun b => .done (f b)) x := by
  induction x with
  | done b => exact .done ⟨rfl, h⟩
  | ask q k ih => exact .ask q fun answer => ih answer (h answer)
  | exit status => exact .exit status

/-- The right computation is the left one without what its values have more. -/
theorem Along.erase {x : Action α} {y : Action β} (h : Along P x y) (f : α → β)
    (forgets : ∀ a b, P a b → f a = b) : x.bind (fun a => .done (f a)) = y := by
  induction h with
  | done related => exact congrArg Action.done (forgets _ _ related)
  | ask q _ ih => exact congrArg (Action.ask q) (funext ih)
  | exit status => rfl

theorem Along.always {p : α → Prop} {x : Action α} {y : Action β} (h : Along P x y)
    (imp : ∀ a b, P a b → p a) : x.Always p := by
  induction h with
  | done related => exact imp _ _ related
  | ask q _ ih => exact ih
  | exit status => trivial

end Action

end GuestHost
