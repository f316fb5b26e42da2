import GuestHost.Config.Reader
import GuestHost.Guest.Basic
import GuestHost.Session.Host
import GuestHost.Session.Memory
import GuestHost.World

/-!
Sessions: one embedder with several guests, each known by its number.
-/

namespace GuestHost

/-- What an embedder does. A guest is made from a module file's contents and the text of its
configuration; every other step names a guest. -/
inductive Step
  | create (module : Option Wasm.Module) (config : String)
  | call (guest : Nat) (name : String) (args : List (BitVec 64))
  | hasExport (guest : Nat) (name : String)
  | memory (guest : Nat) (q : MemoryRequest)
  | pages (guest : Nat)
  | grow (guest : Nat) (delta : Nat)
  | host (guest : Nat) (q : HostRequest)

/-- A guest that could not be made keeps its number. -/
abbrev Session := List (Option Guest)

namespace Session

def guest? (s : Session) (i : Nat) : Option Guest := s[i]?.join

def create (s : Session) (m : Option Wasm.Module) (config : String) : Action (Reply × Session) :=
  match Config.ofText config with
  | .error e => return (.configError e, s ++ [none])
  | .ok config => do
    match ← Guest.load m config with
    | .error e => return (.guestError e, s ++ [none])
    | .ok g => return (.nothing, s ++ [some g])

def onGuest (s : Session) (i : Nat) (f : Guest → Action (Reply × Guest)) :
    Action (Reply × Session) :=
  match s.guest? i with
  | none => return (.noGuest, s)
  | some g => do
    let (reply, g) ← f g
    return (reply, s.set i (some g))

def onMemory (s : Session) (i : Nat) (f : LinearMemory → Reply × LinearMemory) :
    Action (Reply × Session) :=
  s.onGuest i fun g => match g.memory? with
    | none => return (.noMemory, g)
    | some m => let (reply, m) := f m; return (reply, g.setMemory m)

def callReply : Except GuestError (List (BitVec 64)) → Reply
  | .ok words => .words words
  | .error e => .guestError e

def step (s : Session) : Step → Action (Reply × Session)
  | .create m config => s.create m config
  | .call i name args => s.onGuest i fun g => do
    let (result, g) ← g.call name args
    return (callReply result, g)
  | .hasExport i name => s.onGuest i fun g => return (.flag (g.hasExport name), g)
  | .memory i q => s.onMemory i fun m => let (reply, b) := q.serve m.toMemory; (reply, m.put b)
  | .pages i => s.onMemory i fun m => (.size m.pages, m)
  | .grow i delta => s.onMemory i fun m => match m.grow delta with
    | some grown => (.size m.pages, grown)
    | none => (.growRefused, m)
  | .host i q => s.onGuest i fun g => do
    let (reply, h) ← q.serve g.store.host
    return (reply, { g with store := { g.store with host := h } })

/-- The replies to the steps that were answered, each with the exchanges of its step, and how it
ended: with the last session, or with the process over and the exchanges of the step that ended
it. -/
structure Transcript where
  replies : List (Reply × Trace)
  ending : Ending Session
  rest : Trace

def play (w : World) (s : Session) (t : Trace) : List Step → Transcript
  | [] => ⟨[], .value s, []⟩
  | q :: qs =>
    match (s.step q).run w t with
    | (.exited status, u) => ⟨[], .exited status, u.drop t.length⟩
    | (.value (reply, s), u) =>
      let rest := play w s u qs
      { rest with replies := (reply, u.drop t.length) :: rest.replies }

namespace Transcript

def trace (t : Transcript) : Trace := t.replies.flatMap (·.2) ++ t.rest

/-- The status of the process: a session that was not ended early ends well. -/
def status (t : Transcript) : Nat :=
  match t.ending with
  | .value _ => 0
  | .exited status => status

end Transcript

end Session

end GuestHost
