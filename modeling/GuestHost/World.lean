import GuestHost.Action
import GuestHost.Log.Filter

/-!
Worlds: what answers the requests of a computation. A world may answer by all that was exchanged
before. Running a computation in a world gives its end and the exchanges.
-/

namespace GuestHost

structure Exchange where
  request : Request
  answer : request.Answer

abbrev Trace := List Exchange

abbrev World := Trace → (q : Request) → q.Answer

inductive Ending (α : Type)
  | value (a : α)
  | exited (status : Nat)
  deriving DecidableEq, Repr

namespace Action

variable {α β : Type}

def run (w : World) : Action α → Trace → Ending α × Trace
  | done a, t => (.value a, t)
  | ask q k, t => (k (w t q)).run w (t ++ [⟨q, w t q⟩])
  | exit status, t => (.exited status, t)

theorem run_bind (w : World) (x : Action α) (f : α → Action β) (t : Trace) :
    (x.bind f).run w t =
      match x.run w t with
      | (.value a, t) => (f a).run w t
      | (.exited status, t) => (.exited status, t) := by
  induction x generalizing t with
  | done a => rfl
  | ask q k ih => simp [run, ih]
  | exit status => rfl

end Action

namespace Exchange

/-- The chunk that the stream took in this exchange. -/
def sent (stream : OutputStream) : Exchange → List UInt8
  | ⟨.offer s bytes, true⟩ => if s = stream then bytes else []
  | _ => []

def record? : Exchange → Option Log.Record
  | ⟨.log record, _⟩ => some record
  | _ => none

end Exchange

namespace Trace

/-- All that the stream took. -/
def sent (t : Trace) (stream : OutputStream) : List UInt8 := t.flatMap (·.sent stream)

def records (t : Trace) : List Log.Record := t.filterMap (·.record?)

def offered (t : Trace) (stream : OutputStream) : List (List UInt8) :=
  t.filterMap fun e => match e.request with
    | .offer s bytes => if s = stream then some bytes else none
    | _ => none

def readings (t : Trace) (clock : Clock) : Nat := t.countP (·.request = .clock clock)

def drawn (t : Trace) : Nat :=
  (t.map fun e => match e.request with
    | .random count => count
    | _ => 0).foldr (· + ·) 0

/-- What a terminal shows that both the error stream and the log go to. -/
def stderrWithLog (t : Trace) (filter : Log.Filter) : List UInt8 :=
  t.flatMap fun e => match e.record? with
    | some r => if filter.shows r then r.line.toUTF8.toList else []
    | none => e.sent .stderr

end Trace

/-- A world whose clocks, random source and streams each run on their own. Clock readings and random
bytes are given by their number; a stream decides by the chunks it was offered before. -/
structure Surroundings where
  pid : BitVec 32
  clock : Clock → Nat → Nat
  random : Nat → UInt8
  takes : OutputStream → List (List UInt8) → List UInt8 → Bool
  file : String → Except FileError (List UInt8)
  moduleFile : String → Except FileError (Option Wasm.Module)

def Surroundings.world (s : Surroundings) : World
  | _, .pid => s.pid
  | t, .clock c => s.clock c (t.readings c)
  | t, .random _ => Vector.ofFn fun i => s.random (t.drawn + i)
  | t, .offer stream bytes => s.takes stream (t.offered stream) bytes
  | _, .log _ => ()
  | _, .readFile path => s.file path
  | _, .loadModule path => s.moduleFile path

end GuestHost
