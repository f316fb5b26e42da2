import GuestHost.Proofs.Recorded
import GuestHost.Proofs.Simulation

/-!
Relations between recorded runs and the runs without a recorder. Code of the guest does not see the
host and raises none of its errors; those come from calls that are taken down. So a relation that
holds of such code and of each call that is taken down, and of runs in a row, holds of all that
guests and host functions do.
-/

namespace GuestHost

open Wasm (Val Func Module)

variable {α β : Type}

/-- The errors that a call can fail with itself, and not by a call that it makes. -/
inductive Event.Raises : Event → HostError → Prop
  | served (f : HostFunction) (args : List Val) (before : Store) (e : HostError) :
    Raises (.served f args before (.error (.host e))) e
  | unsupported (t : Trampoline) (args : List Val) :
    Raises (.dispatched t args) (.unsupported t.name)
  | slot (t : Trampoline) (slot : BitVec 32) (args : List Val) (reason : String) :
    Raises (.dispatched t (.i32 slot :: args)) (.badTableEntry slot.toNat reason)

namespace Run

/-- The run leaves the host state alone, and if it is stopped by the host then with one of these
errors. -/
def Meek (Raised : HostError → Prop) (x : Run α) : Prop :=
  ∀ s, (x.startAt s).Always fun p =>
    p.2.host = s.host ∧ ∀ e, p.1 = .error (.host e) → Raised e

abbrev Aloof (x : Run α) : Prop := Meek (fun _ => False) x

variable {Raised : HostError → Prop}

theorem Meek.mono {Raised' : HostError → Prop} {x : Run α} (hx : Meek Raised x)
    (more : ∀ e, Raised e → Raised' e) : Meek Raised' x :=
  fun s => (hx s).mono fun _ ended => ⟨ended.1, fun e failed => more e (ended.2 e failed)⟩

theorem Meek.bind {x : Run α} {f : α → Run β} (hx : Meek Raised x)
    (hf : ∀ a, Meek Raised (f a)) : Meek Raised (x >>= f) := by
  intro s
  apply always_startAt_bind
  apply (hx s).mono
  rintro ⟨stop | a, s'⟩ ⟨same, raised⟩
  · exact ⟨same, fun e failed => raised e (by cases failed; rfl)⟩
  · exact (hf a s').mono fun _ ended => ⟨ended.1.trans same, ended.2⟩

theorem aloof_fault (f : Wasm.Fault) : Aloof (fault f : Run α) := fun _ => ⟨rfl, nofun⟩

theorem aloof_log (level : Log.Level) (target text : String) : Aloof (log level target text) := by
  intro s
  rw [startAt_log]
  exact fun _ => ⟨rfl, nofun⟩

theorem meek_fail {e : HostError} (raised : Raised e) : Meek Raised (fail e : Run α) := by
  intro s
  refine ⟨rfl, fun e' failed => ?_⟩
  cases failed
  exact raised

theorem meek_fatal {e : HostError} (raised : Raised e) : Meek Raised (fatal e : Run α) := by
  intro s
  rw [startAt_fatal]
  intro _
  cases s.host.config.fatal with
  | exit =>
    intro _
    trivial
  | trap => exact meek_fail raised s

theorem meek_pure (a : α) : Meek Raised (pure a : Run α) := fun _ => ⟨rfl, nofun⟩

theorem fatal_bind (e : HostError) (f : α → Run β) : (fatal e : Run α) >>= f = fatal e := by
  simp only [fatal, bind_assoc]
  rfl

end Run

/-! Beyond calls, contexts matter for the memory that they show -/

section

variable {A B : Type → Type} {c : ContextIn A} {c' : ContextIn B}

theorem ContextIn.memory_congr (same : c.memoryExported = c'.memoryExported) :
    c.memory = c'.memory := by
  rw [memory, memory, same]

theorem Primitive.run_congr (same : c.memory = c'.memory) (p : Primitive) (args : List Val) :
    p.run c args = p.run c' args := by
  unfold run
  simp only [resize, copy, same]

theorem WasiCall.run_congr (same : c.memory = c'.memory) (w : WasiCall) (args : List Val) :
    w.run c args = w.run c' args := by
  unfold run
  simp only [write, emptySizes, storeU32, clockTime, random, same]

end

/-- What a relation has to satisfy to hold of all that guests and host functions do. A trampoline
is taken down when it is entered, and looks up its target then. -/
structure RecordedCongruence (Rel : (α : Type) → Recorded α → Run α → Prop) : Prop where
  pure {α : Type} (a : α) : Rel α (Pure.pure a) (Pure.pure a)
  bind {α β : Type} {x : Recorded α} {y : Run α} {f : α → Recorded β} {g : α → Run β} :
    Rel α x y → (∀ a, Rel β (f a) (g a)) → Rel β (x >>= f) (y >>= g)
  plain {α : Type} {x : Run α} : x.Aloof → Rel α (RunIn.plain x) x
  entered (fn : Func) (args : List Val) :
    Rel Unit (RunIn.note (.entered fn args)) (Pure.pure ())
  dispatched {α : Type} (t : Trampoline) (args : List Val) {x : Run α} :
    x.Meek (Event.dispatched t args).Raises →
      Rel α (RunIn.note (.dispatched t args) >>= fun _ => RunIn.plain x) x
  served (c : Context) (f : HostFunction) (args : List Val) :
    (∀ t, f ≠ .trampoline t) → args.length ≤ f.type.params.length →
      Rel _ (RunIn.watch (f.run c args) fun s r => [.served f args s r]) (f.run c args)

namespace Recorded

theorem plain_bind (x : Run α) (f : α → Run β) :
    (RunIn.plain (x >>= f) : Recorded β) = RunIn.plain x >>= fun a => RunIn.plain (f a) := by
  apply ExceptT.ext
  funext s h
  change startAt (RunIn.plain (x >>= f)) s h =
    startAt (RunIn.plain x >>= fun a => RunIn.plain (f a)) s h
  rw [startAt_bind, startAt_plain, startAt_plain, Run.startAt_bind, Action.bind_assoc,
    Action.bind_assoc]
  refine congrArg (Action.bind (x.startAt s)) (funext fun (r, s') => ?_)
  cases r with
  | error stop => rfl
  | ok a =>
    rw [Action.done_bind]
    simp only [startAt_plain]

theorem plain_fatal_bind (e : HostError) (f : α → Recorded β) :
    RunIn.plain (Run.fatal e : Run α) >>= f = RunIn.plain (Run.fatal e) := by
  apply ExceptT.ext
  funext s h
  change startAt (RunIn.plain (Run.fatal e) >>= f) s h = startAt (RunIn.plain (Run.fatal e)) s h
  rw [startAt_bind, startAt_plain, startAt_plain, Run.startAt_fatal, Run.startAt_fatal]
  cases s.host.config.fatal <;> rfl

end Recorded

namespace Trampoline

variable {A : Type → Type}

def target (c : ContextIn A) (t : Trampoline) (slot : BitVec 32) : Run Nat := do
  let host ← Run.host
  match host.config.indirectCalls with
  | .fatal => Run.unsupported t.name
  | .resolve => resolve c slot.toNat

variable (t : Trampoline) (slot : BitVec 32) (args : List Val)

theorem run_eq_target (c : Context) :
    t.run c (.i32 slot :: args) = target c t slot >>= fun func => (do
      Run.log .debug "embridge::trampoline" s!"{t.name}: calling table slot {slot.toNat}"
      match c.callee func with
      | some callee => t.dispatch callee args
      | none => Run.fault .malformed) := by
  rw [run_slot, target, bind_assoc]
  refine congrArg (Bind.bind Run.host) (funext fun host => ?_)
  cases host.config.indirectCalls with
  | fatal => exact (Run.fatal_bind _ _).symm
  | resolve => rfl

theorem recorded_eq_target (c : ContextIn Recorder) :
    t.runIn c (.i32 slot :: args) =
      RunIn.plain (target c t slot) >>= fun func => (do
        RunIn.plain
          (Run.log .debug "embridge::trampoline" s!"{t.name}: calling table slot {slot.toNat}")
        match c.callee func with
        | some callee => t.dispatchIn callee args
        | none => RunIn.plain (Run.fault .malformed)) := by
  rw [runIn, target, Recorded.plain_bind, bind_assoc]
  refine congrArg (Bind.bind (RunIn.plain Run.host)) (funext fun host => ?_)
  cases host.config.indirectCalls with
  | fatal => exact (Recorded.plain_fatal_bind _ _).symm
  | resolve =>
    refine congrArg (Bind.bind (RunIn.plain (resolve c slot.toNat))) (funext fun func => ?_)
    refine congrArg (Bind.bind (RunIn.plain (Run.log _ _ _))) (funext fun _ => ?_)
    cases c.callee func <;> rfl

variable (c : ContextIn A)

theorem meek_resolve :
    (resolve c slot.toNat).Meek (Event.dispatched t (.i32 slot :: args)).Raises := by
  have looked : c.table?.Meek (Event.dispatched t (.i32 slot :: args)).Raises :=
    fun _ => ⟨rfl, nofun⟩
  apply looked.bind
  intro table
  split
  · exact Run.meek_fail (.slot ..)
  · split
    · exact Run.meek_fail (.slot ..)
    · exact Run.meek_fail (.slot ..)
    · exact Run.meek_pure _

theorem meek_target :
    (target c t slot).Meek (Event.dispatched t (.i32 slot :: args)).Raises := by
  have host : Run.host.Meek (Event.dispatched t (.i32 slot :: args)).Raises :=
    fun _ => ⟨rfl, nofun⟩
  apply host.bind
  intro host
  split
  · exact Run.meek_fatal (.unsupported ..)
  · exact meek_resolve t slot args c

end Trampoline

def Image.Honest (i : Image) : Prop := ∀ type f, Code.host type f ∈ i.code → type = f.type

theorem Image.honest_of_link {m : Module} {c : Config} {image : Image}
    (linked : link m (Guest.registrar c).1.linker = .ok image) : image.Honest := by
  obtain ⟨ds, found, rfl⟩ := link_eq_ok_iff.mp linked
  intro type f member
  rcases List.mem_append.mp member with imported | own
  · obtain ⟨d, defined, same⟩ := List.mem_map.mp imported
    cases same
    obtain ⟨i, _, here⟩ := found_of_imports found defined
    exact (Guest.installed_of_find? here).1
  · obtain ⟨fn, _, other⟩ := List.mem_map.mp own
    cases other

namespace RecordedCongruence

variable {Rel : (α : Type) → Recorded α → Run α → Prop}

theorem fault (h : RecordedCongruence Rel) (f : Wasm.Fault) :
    Rel α (RunIn.plain (Run.fault f)) (Run.fault f) := h.plain (Run.aloof_fault f)

/-- Code of the guest leaves the host state alone and raises none of the errors of the host. -/
theorem simulation (h : RecordedCongruence Rel) : Simulation (A := Recorder) (B := Action) Rel where
  pure := h.pure
  bind := h.bind
  fault f _ := h.fault f
  space := h.plain fun _ => ⟨rfl, nofun⟩
  setSpace _ := h.plain fun _ => ⟨rfl, nofun⟩
  entered := h.entered

/-- A trampoline is taken down, looks up its target, and goes on to that. -/
theorem trampoline_parts (h : RecordedCongruence Rel) {c : ContextIn Recorder} {c' : Context}
    (related : ContextRel Rel c c') (t : Trampoline) (args : List Val) :
    ∃ (x : Run Nat) (f : Nat → Recorded (List Val)) (g : Nat → Run (List Val)),
      (HostFunction.trampoline t).runIn c args =
        (RunIn.note (.dispatched t args) >>= fun _ => RunIn.plain x) >>= f ∧
      t.run c' args = x >>= g ∧ x.Meek (Event.dispatched t args).Raises ∧
      ∀ func, Rel _ (f func) (g func) := by
  obtain ⟨_, _, callee'⟩ := c'
  obtain ⟨rfl, rfl, related⟩ := related
  by_cases slotted : ∃ slot words, args = .i32 slot :: words
  · obtain ⟨slot, words, rfl⟩ := slotted
    rw [t.run_eq_target, HostFunction.runIn, t.recorded_eq_target, ← bind_assoc]
    refine ⟨_, _, _, rfl, rfl, t.meek_target slot words c, fun func => ?_⟩
    apply h.bind (h.plain (Run.aloof_log _ _ _))
    intro _
    have same := related func
    dsimp only at same ⊢
    generalize c.callee func = target, callee' func = target' at same ⊢
    cases same with
    | none => exact h.fault _
    | some same => exact h.simulation.dispatch t same words
  · refine ⟨Run.fault .malformed, fun _ => RunIn.plain (Run.fault .malformed),
      fun _ => Run.fault .malformed, ?_, t.runIn_of_not_slot _ slotted, ?_, fun _ => h.fault _⟩
    · rw [HostFunction.runIn, t.runIn_of_not_slot c slotted, bind_assoc]
      rfl
    · exact (Run.aloof_fault _).mono fun _ => False.elim

theorem hostFunction (h : RecordedCongruence Rel) {c : ContextIn Recorder} {c' : Context}
    (related : ContextRel Rel c c') (f : HostFunction) (args : List Val)
    (count : args.length ≤ f.type.params.length) : Rel _ (f.runIn c args) (f.run c' args) := by
  cases f with
  | trampoline t =>
    obtain ⟨x, f, g, recorded, run, meek, next⟩ := h.trampoline_parts related t args
    change Rel _ _ (t.run c' args)
    rw [recorded, run]
    exact h.bind (h.dispatched t args meek) next
  | primitive p =>
    rw [HostFunction.runIn, p.run_congr (ContextIn.memory_congr related.memory)]
    exact h.served c' (.primitive p) args nofun count
  | syscall s => exact h.served c' (.syscall s) args nofun count
  | wasi w =>
    rw [HostFunction.runIn, w.run_congr (ContextIn.memory_congr related.memory)]
    exact h.served c' (.wasi w) args nofun count

theorem hostRel (h : RecordedCongruence Rel) {i : Image} (honest : i.Honest) : i.HostRel Rel := by
  intro type f member c c' related args typed
  obtain rfl := honest type f member
  refine h.hostFunction related f args (Nat.le_of_eq ?_)
  rw [← typed, List.length_map]

end RecordedCongruence

end GuestHost
