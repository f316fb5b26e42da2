import GuestHost.Effect.Escalation
import GuestHost.World

/-!
What holds of every value that a computation can end with, whatever it is answered on the way; and
two habits of runs that are stated so. A silent run leaves the store as it was. An atomic run may
change the store, but not when it ends badly.
-/

namespace GuestHost

def Surroundings.still : Surroundings where
  pid := 1
  clock _ _ := 0
  random _ := 0
  takes _ _ _ := true
  file _ := .error .notFound
  moduleFile _ := .error .notFound

namespace Action

variable {α β : Type} {P Q : α → Prop}

/-- A computation that ends the process has no value that could fail to satisfy `P`. -/
def Always (P : α → Prop) : Action α → Prop
  | done a => P a
  | ask _ k => ∀ answer, (k answer).Always P
  | exit _ => True

@[simp] theorem always_done (a : α) : (done a).Always P ↔ P a := Iff.rfl

@[simp] theorem always_ask (q : Request) (k : q.Answer → Action α) :
    (ask q k).Always P ↔ ∀ answer, (k answer).Always P := Iff.rfl

@[simp] theorem always_exit (status : Nat) : (exit status : Action α).Always P ↔ True := Iff.rfl

theorem always_bind (x : Action α) (f : α → Action β) (P : β → Prop) :
    (x.bind f).Always P ↔ x.Always fun a => (f a).Always P := by
  induction x with
  | done a => rfl
  | ask q k ih => exact forall_congr' ih
  | exit status => rfl

theorem always_of_forall (x : Action α) (h : ∀ a, P a) : x.Always P := by
  induction x with
  | done a => exact h a
  | ask q k ih => exact ih
  | exit status => trivial

theorem Always.mono {x : Action α} (h : x.Always P) (imp : ∀ a, P a → Q a) : x.Always Q := by
  induction x with
  | done a => exact imp a h
  | ask q k ih =>
    intro answer
    exact ih answer (h answer)
  | exit status => trivial

theorem Always.and {x : Action α} (hp : x.Always P) (hq : x.Always Q) :
    x.Always fun a => P a ∧ Q a := by
  induction x with
  | done a => exact ⟨hp, hq⟩
  | ask q k ih =>
    intro answer
    exact ih answer (hp answer) (hq answer)
  | exit status => trivial

/-- A run in a world meets no value that answers could not lead to. -/
theorem Always.of_run {x : Action α} (h : x.Always P) {w : World} {t u : Trace} {a : α}
    (ends : x.run w t = (.value a, u)) : P a := by
  induction x generalizing t with
  | done b =>
    rw [run, Prod.mk.injEq] at ends
    cases ends.1
    exact h
  | ask q k ih => exact ih (w t q) (h (w t q)) ends
  | exit status =>
    rw [run, Prod.mk.injEq] at ends
    cases ends.1

/-- What comes next counts only at values that the computation can end with. -/
theorem Always.bind_congr {x : Action α} (h : x.Always P) {f f' : α → Action β}
    (same : ∀ a, P a → f a = f' a) : x.bind f = x.bind f' := by
  induction x with
  | done a => exact same a h
  | ask q k ih => exact congrArg (ask q) (funext fun answer => ih answer (h answer))
  | exit status => rfl

/-- Whatever it is answered, the computation ends with the value `a`. -/
def Ends (a : α) : Action α → Prop
  | done b => b = a
  | ask _ k => ∀ answer, (k answer).Ends a
  | exit _ => False

theorem Ends.run {x : Action α} {a : α} (h : x.Ends a) (w : World) (t : Trace) :
    (x.run w t).1 = .value a := by
  induction x generalizing t with
  | done b => exact congrArg Ending.value h
  | ask q k ih => exact ih (w t q) (h (w t q)) _
  | exit status => exact absurd h id

end Action

namespace Run

variable {α β : Type}

def StoppedByHost (r : Except Stop α) : Prop := ∃ e, r = .error (.host e)

def Silent (x : Run α) : Prop := ∀ s, (x.startAt s).Always fun p => p.2 = s

/-- `bad` tells which results must leave the store as it was. -/
def Atomic (bad : Except Stop α → Prop) (x : Run α) : Prop :=
  ∀ s, (x.startAt s).Always fun p => bad p.1 → p.2 = s

theorem silent_pure (a : α) : Silent (pure a : Run α) := fun _ => rfl

theorem silent_fail (e : HostError) : Silent (fail e : Run α) := fun _ => rfl

theorem silent_fault (f : Wasm.Fault) : Silent (fault f : Run α) := fun _ => rfl

theorem silent_host : Silent host := fun _ => rfl

theorem silent_ask (q : Request) : Silent (ask q) := by
  intro s
  simp

theorem silent_log (level : Log.Level) (target text : String) :
    Silent (log level target text) := by
  intro s
  simp

theorem silent_ofExcept (x : Except HostError α) : Silent (ofExcept x) := by
  intro s
  cases x <;> rfl

theorem silent_memory (c : Context) : Silent c.memory := by
  intro s
  rw [ContextIn.startAt_memory, Action.always_done]
  cases c.memoryIn s <;> rfl

theorem silent_fatal (e : HostError) : Silent (fatal e : Run α) := by
  intro s
  rw [startAt_fatal]
  intro _
  cases s.host.config.fatal with
  | exit =>
    intro _
    trivial
  | trap => rfl

/-- What comes after a bind runs only from the store that the first part left. -/
theorem always_startAt_bind {x : Run α} {f : α → Run β} {s : Store}
    {P : Except Stop β × Store → Prop}
    (h : (x.startAt s).Always fun
      | (.ok a, s) => ((f a).startAt s).Always P
      | (.error stop, s) => P (.error stop, s)) :
    ((x >>= f).startAt s).Always P := by
  rw [startAt_bind, Action.always_bind]
  apply h.mono
  intro p rest
  rcases p with ⟨_ | a, s'⟩
  · exact rest
  · exact rest

theorem Silent.bind {x : Run α} {f : α → Run β} (hx : Silent x) (hf : ∀ a, Silent (f a)) :
    Silent (x >>= f) := by
  intro s
  apply always_startAt_bind
  apply (hx s).mono
  intro p same
  rcases p with ⟨_ | a, s'⟩
  all_goals cases same
  · rfl
  · exact hf a s'

variable {bad : Except Stop β → Prop}

theorem Silent.atomic {x : Run β} (hx : Silent x) : Atomic bad x :=
  fun s => (hx s).mono fun _ same _ => same

theorem Atomic.imp {x : Run β} {bad' : Except Stop β → Prop} (hx : Atomic bad x)
    (h : ∀ r, bad' r → bad r) : Atomic bad' x :=
  fun s => (hx s).mono fun p kept isBad => kept (h p.1 isBad)

/-- Checks may come first: what fails there has changed nothing. -/
theorem Silent.bind_atomic {x : Run α} {f : α → Run β} (hx : Silent x)
    (hf : ∀ a, Atomic bad (f a)) : Atomic bad (x >>= f) := by
  intro s
  apply always_startAt_bind
  apply (hx s).mono
  intro p same
  rcases p with ⟨_ | a, s'⟩
  all_goals cases same
  · intro _
    rfl
  · exact hf a s'

/-- Changes may come last, when nothing can end badly any more. -/
theorem atomic_of_never {x : Run β}
    (h : ∀ s, (x.startAt s).Always fun p => ¬ bad p.1) : Atomic bad x :=
  fun s => (h s).mono fun _ good isBad => absurd isBad good

/-- A result that is passed on ends badly only where the run that gave it did. -/
theorem Atomic.bind_pure {x : Run α} {bad' : Except Stop α → Prop} (hx : Atomic bad' x) (g : α → β)
    (ok : ∀ a, bad (.ok (g a)) → bad' (.ok a)) (error : ∀ e, bad (.error e) → bad' (.error e)) :
    Atomic bad (x >>= fun a => pure (g a)) := by
  intro s
  apply always_startAt_bind
  apply (hx s).mono
  intro p kept
  rcases p with ⟨e | a, s'⟩
  · intro isBad
    exact kept (error e isBad)
  · intro isBad
    exact kept (ok a isBad)

end Run

end GuestHost
