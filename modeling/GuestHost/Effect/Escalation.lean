import GuestHost.Watch

/-!
The one way in which a call that is not provided ends the run of a guest.
-/

namespace GuestHost

def fatalStatus : Nat := 1

/-- Logs the error; then the process ends with the error on its error stream, or the error is handed
back to become the outcome of the guest's call. -/
def escalate (policy : FatalPolicy) (e : HostError) : Action HostError := do
  Action.log .error "embridge::fatal" s!"fatal: {e.message}"
  match policy with
  | .exit => do
    Action.print .stderr s!"fatal: {e.message}\n"
    Action.exit fatalStatus
  | .trap => return e

namespace Run

variable {α : Type}

def fatal (e : HostError) : Run α := do
  let host ← Run.host
  let e ← Run.action (escalate host.config.fatal e)
  Run.fail e

def unsupported (call : String) : Run α := fatal (.unsupported call)

end Run

/-- The target under which fatal errors are logged, and nothing else is. -/
def fatalTarget : String := "embridge::fatal"

def fatalRecord (e : HostError) : Log.Record := ⟨.error, fatalTarget, s!"fatal: {e.message}"⟩

def fatalLine (e : HostError) : List UInt8 := s!"fatal: {e.message}\n".toUTF8.toList

theorem Run.startAt_fatal {α : Type} (e : HostError) (s : Store) :
    (Run.fatal e : Run α).startAt s = .ask (.log (fatalRecord e)) fun _ =>
      match s.host.config.fatal with
      | .exit => .ask (.offer .stderr (fatalLine e)) fun _ => .exit fatalStatus
      | .trap => .done (.error (.host e), s) := by
  simp only [Run.fatal, Run.startAt_bind, Run.startAt_host, Action.done_bind, Run.startAt_action,
    escalate]
  cases s.host.config.fatal <;> rfl

end GuestHost
