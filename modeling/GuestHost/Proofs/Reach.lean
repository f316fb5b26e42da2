import GuestHost.Proofs.Arms
import GuestHost.Proofs.Bounds
import GuestHost.Proofs.Endings

/-!
What a host function can reach through its caller. With a memory in reach it never lacks one.
Without any export in reach a call fails as soon as it looks for one, and the calls that do not look
for one are the same whoever their caller is.
-/

namespace GuestHost

open Wasm (Val)

variable {α β : Type}

namespace Run

/-- With a memory in reach the run does not end for want of one, and one is in reach at its end. -/
def Provided (c : Context) (x : Run α) : Prop :=
  ∀ s, (c.memoryIn s).isSome → (x.startAt s).Always fun p =>
    p.1 ≠ .error (.host .noMemory) ∧ (c.memoryIn p.2).isSome

namespace Provided

variable {c : Context}

theorem bind {x : Run α} {f : α → Run β} (hx : Provided c x) (hf : ∀ a, Provided c (f a)) :
    Provided c (x >>= f) := by
  intro s reach
  refine always_startAt_bind ((hx s reach).mono ?_)
  intro p given
  rcases p with ⟨stop | a, s'⟩
  · exact ⟨fun lacks => given.1 (by cases lacks; rfl), given.2⟩
  · exact hf a s' given.2

theorem pure (a : α) : Provided c (Pure.pure a) := fun _ reach => ⟨nofun, reach⟩

theorem fault (f : Wasm.Fault) : Provided c (Run.fault f : Run α) :=
  fun _ reach => ⟨nofun, reach⟩

theorem fail {e : HostError} (other : e ≠ .noMemory) : Provided c (Run.fail e : Run α) := by
  intro s reach
  refine ⟨fun lacks => other ?_, reach⟩
  cases lacks
  rfl

theorem fatal {e : HostError} (other : e ≠ .noMemory) : Provided c (Run.fatal e : Run α) := by
  intro s reach
  rw [startAt_fatal]
  intro _
  cases s.host.config.fatal with
  | exit =>
    intro _
    trivial
  | trap => exact fail other s reach

theorem ask (q : Request) : Provided c (Run.ask q) := by
  intro s reach
  rw [startAt_ask]
  exact fun _ => ⟨nofun, reach⟩

theorem log (level : Log.Level) (target text : String) : Provided c (Run.log level target text) :=
  ask _

theorem host : Provided c Run.host := fun _ reach => ⟨nofun, reach⟩

theorem modifyHost (f : HostState → HostState) : Provided c (Run.modifyHost f) :=
  fun _ reach => ⟨nofun, reach⟩

theorem setMemory (m : LinearMemory) : Provided c (Run.setMemory m) := by
  intro s reach
  refine ⟨nofun, ?_⟩
  unfold ContextIn.memoryIn at reach ⊢
  split at reach
  · rename_i exported
    simp [exported]
  · cases reach

theorem memory : Provided c c.memory := by
  intro s reach
  rw [ContextIn.startAt_memory]
  obtain ⟨m, found⟩ := Option.isSome_iff_exists.mp reach
  rw [found]
  exact ⟨nofun, reach⟩

theorem ofExcept {x : Except HostError α} (bounds : BoundsOnly x) :
    Provided c (Run.ofExcept x) := by
  cases x with
  | ok a => exact pure a
  | error e =>
    obtain ⟨offset, length, size, rfl⟩ := bounds e rfl
    exact fail nofun

theorem edit {m : LinearMemory} {f : Memory → Except HostError Memory}
    (bounds : BoundsOnly (f m.toMemory)) : Provided c (do
      let m ← Run.ofExcept (m.edit f)
      Run.setMemory m) :=
  (ofExcept (bounds.edit m)).bind setMemory

end Provided

end Run

open Run

namespace Primitive

variable (c : Context)

theorem resize_provided (requested : BitVec 32) : Provided c (resize c requested) := by
  apply Provided.host.bind
  intro host
  split
  · exact .fatal nofun
  · apply Provided.memory.bind
    intro m
    split
    · exact .pure _
    · dsimp only
      split
      · exact (Provided.setMemory _).bind fun _ => (Provided.log _ _ _).bind fun _ => .pure _
      · exact (Provided.log _ _ _).bind fun _ => .pure _

theorem copy_provided (dest src length : BitVec 32) : Provided c (copy c dest src length) :=
  Provided.memory.bind fun m => .edit (.copyWithin m.toMemory _ _ _)

theorem run_provided (p : Primitive) (args : List Val) : Provided c (p.run c args) := by
  obtain ⟨F, run_eq, arm⟩ := p.exists_arm args
  rw [run_eq]
  cases arm with
  | malformed => exact .fault _
  | notify notice =>
    have told : Provided c (notifyGrowth notice) := (Provided.log _ _ _).bind fun _ => .modifyHost _
    exact told.bind fun _ => .pure _
  | setTemp value => exact (Provided.modifyHost _).bind fun _ => .pure _
  | getTemp => exact Provided.host.bind fun _ => .pure _
  | resize requested => exact (resize_provided c requested).bind fun _ => .pure _
  | abort => exact .fatal nofun
  | longjmp => exact .fatal nofun
  | copy dest src length => exact (copy_provided c dest src length).bind fun _ => .pure _

end Primitive

theorem Syscall.run_provided (c : Context) (s : Syscall) : Provided c s.run := by
  unfold run
  split
  · exact (Provided.ask _).bind fun _ => .pure _
  · exact .fatal nofun

namespace WasiCall

variable (c : Context)

theorem sendAll_provided (stream : OutputStream) (chunks : List (List UInt8)) :
    Provided c (sendAll stream chunks) := by
  induction chunks with
  | nil => exact .pure _
  | cons chunk chunks ih =>
    apply (Provided.ask _).bind
    intro taken
    split
    · exact ih
    · exact .pure _

theorem deliver_provided (stream : OutputStream) (chunks : List (List UInt8)) :
    Provided c (deliver stream chunks) := by
  apply Provided.host.bind
  intro host
  split
  · exact (Provided.modifyHost _).bind fun _ => .pure _
  · exact sendAll_provided c stream chunks

theorem storeU32_provided (pointer word : BitVec 32) : Provided c (storeU32 c pointer word) :=
  Provided.memory.bind fun m => .edit (.write m.toMemory _ _)

theorem write_provided (fd iovs count nwritten : BitVec 32) :
    Provided c (write c fd iovs count nwritten) := by
  unfold write
  split
  · exact .pure _
  · apply Provided.memory.bind
    intro m
    apply (Provided.ofExcept (.gather m.toMemory _ _ _)).bind
    intro vs
    dsimp only
    split
    · exact .pure _
    · apply (deliver_provided c _ _).bind
      intro sent
      split
      · apply (Provided.ofExcept (.edit m (.write m.toMemory _ _))).bind
        intro m
        exact (Provided.setMemory m).bind fun _ => .pure _
      · exact .pure _

theorem emptySizes_provided (count size : BitVec 32) : Provided c (emptySizes c count size) :=
  (storeU32_provided c count 0).bind fun _ => (storeU32_provided c size 0).bind fun _ => .pure _

theorem clockTime_provided (id pointer : BitVec 32) : Provided c (clockTime c id pointer) := by
  have read (clock : Clock) : Provided c (readClock clock) := by
    apply (Provided.ask _).bind
    intro now
    cases clock with
    | realtime => exact .pure _
    | monotonic => exact Provided.host.bind fun _ => .pure _
  unfold clockTime
  split
  · exact .pure _
  · refine (read _).bind fun now => Provided.memory.bind fun m => ?_
    apply (Provided.ofExcept (.edit m (.write m.toMemory _ _))).bind
    intro m
    exact (Provided.setMemory m).bind fun _ => .pure _

theorem random_provided (buffer length : BitVec 32) : Provided c (random c buffer length) := by
  apply Provided.memory.bind
  intro m
  apply (Provided.ofExcept (.checkBounds _ _ _)).bind
  intro checked
  apply (Provided.ask _).bind
  intro bytes
  apply (Provided.ofExcept (.edit m (.write m.toMemory _ _))).bind
  intro m
  exact (Provided.setMemory m).bind fun _ => .pure _

theorem run_provided (w : WasiCall) (args : List Val) : Provided c (w.run c args) := by
  obtain ⟨F, run_eq, arm⟩ := w.exists_arm args
  rw [run_eq]
  cases arm with
  | malformed => exact .fault _
  | write fd iovs count nwritten =>
    exact (write_provided c fd iovs count nwritten).bind fun _ => .pure _
  | exit code => exact .fail nofun
  | sizes _ _ count size => exact (emptySizes_provided c count size).bind fun _ => .pure _
  | nothing => exact .pure _
  | clock id pointer => exact (clockTime_provided c id pointer).bind fun _ => .pure _
  | random buffer length => exact (random_provided c buffer length).bind fun _ => .pure _
  | unsupported => exact .fatal nofun

end WasiCall

/-- With a memory in reach no function of the host fails for want of one. -/
theorem HostFunction.run_provided (c : Context) (f : HostFunction) (args : List Val)
    (plain : ∀ t, f ≠ trampoline t) : Provided c (f.run c args) := by
  cases f with
  | primitive p => exact p.run_provided c args
  | trampoline t => exact absurd rfl (plain t)
  | syscall s => exact s.run_provided c
  | wasi w => exact w.run_provided c args

/-! Looking for an export of the caller -/

theorem ContextIn.memoryIn_alone {c : Context} (alone : c.memoryExported = false) (s : Store) :
    c.memoryIn s = none := by
  simp [memoryIn, alone]

namespace Primitive

def looks (s : Store) (args : List Val) : Primitive → Bool
  | memcpyBig => match args with
    | [.i32 _, .i32 _, .i32 _] => true
    | _ => false
  | resizeHeap => match args with
    | [.i32 _] => s.host.config.heapGrowth
    | _ => false
  | _ => false

variable {s : Store} {args : List Val} {p : Primitive}

theorem startAt_run_of_not_looks (not : p.looks s args = false) (c c' : Context) :
    (p.run c args).startAt s = (p.run c' args).startAt s := by
  cases p with
  | memcpyBig =>
    unfold looks at not
    unfold run
    dsimp only at not ⊢
    split
    · cases not
    · rfl
  | resizeHeap =>
    unfold looks at not
    unfold run
    dsimp only at not ⊢
    split
    · simp [resize, startAt_bind, show s.host.config.heapGrowth = false from not]
    · rfl
  | _ => rfl

theorem ends_run_of_looks (looking : p.looks s args = true) {c : Context}
    (alone : c.memoryExported = false) :
    ((p.run c args).startAt s).Ends (.error (.host .noMemory), s) := by
  have none := c.memoryIn_alone alone s
  unfold looks at looking
  split at looking
  · split at looking
    · simp [run, copy, startAt_bind, startAt_map, none, Action.Ends]
    · cases looking
  · split at looking
    · simp [run, resize, startAt_bind, startAt_map, looking, none, Action.Ends]
    · cases looking
  · cases looking

end Primitive

namespace WasiCall

def looks (args : List Val) : WasiCall → Bool
  | fdWrite => match args with
    | [.i32 fd, .i32 _, .i32 _, .i32 _] => (stream? fd).isSome
    | _ => false
  | clockTimeGet => match args with
    | [.i32 id, .i64 _, .i32 _] => (clock? id).isSome
    | _ => false
  | environSizesGet | argsSizesGet | randomGet => match args with
    | [.i32 _, .i32 _] => true
    | _ => false
  | _ => false

variable {s : Store} {args : List Val} {w : WasiCall}

theorem startAt_run_of_not_looks (not : w.looks args = false) (c c' : Context) :
    (w.run c args).startAt s = (w.run c' args).startAt s := by
  cases w with
  | fdWrite =>
    unfold looks at not
    unfold run
    dsimp only at not ⊢
    split
    · rename_i fd _ _ _
      simp [write, Option.not_isSome_iff_eq_none.mp (Bool.eq_false_iff.mp not)]
    · rfl
  | clockTimeGet =>
    unfold looks at not
    unfold run
    dsimp only at not ⊢
    split
    · simp [clockTime, Option.not_isSome_iff_eq_none.mp (Bool.eq_false_iff.mp not)]
    · rfl
  | environSizesGet | argsSizesGet | randomGet =>
    unfold looks at not
    unfold run
    dsimp only at not ⊢
    split
    · cases not
    · rfl
  | _ => rfl

theorem startAt_readClock (clock : Clock) (s : Store) :
    (readClock clock).startAt s = .ask (.clock clock) fun now =>
      .done (.ok (match clock with
        | .realtime => BitVec.ofNat 64 now
        | .monotonic => s.host.elapsed now), s) := by
  cases clock <;> rfl

theorem ends_run_of_looks (looking : w.looks args = true) {c : Context}
    (alone : c.memoryExported = false) :
    ((w.run c args).startAt s).Ends (.error (.host .noMemory), s) := by
  have none := c.memoryIn_alone alone s
  cases w with
  | fdWrite =>
    unfold looks at looking
    dsimp only at looking
    split at looking
    · obtain ⟨stream, found⟩ := Option.isSome_iff_exists.mp looking
      simp [run, answer, write, found, startAt_bind, startAt_map, none, Action.Ends]
    · cases looking
  | clockTimeGet =>
    unfold looks at looking
    dsimp only at looking
    split at looking
    · obtain ⟨clock, found⟩ := Option.isSome_iff_exists.mp looking
      simp [run, answer, clockTime, found, startAt_readClock, startAt_bind, startAt_map, none,
        Action.Ends]
    · cases looking
  | environSizesGet | argsSizesGet =>
    unfold looks at looking
    dsimp only at looking
    split at looking
    · simp [run, answer, emptySizes, storeU32, startAt_bind, startAt_map, none, Action.Ends]
    · cases looking
  | randomGet =>
    unfold looks at looking
    dsimp only at looking
    split at looking
    · simp [run, answer, random, startAt_bind, startAt_map, none, Action.Ends]
    · cases looking
  | _ => cases looking

end WasiCall

namespace Trampoline

def looks (s : Store) : List Val → Bool
  | .i32 _ :: _ => s.host.config.indirectCalls = .resolve
  | _ => false

variable {s : Store} {args : List Val} {t : Trampoline}

theorem startAt_run_of_not_looks (not : looks s args = false) (c c' : Context) :
    (t.run c args).startAt s = (t.run c' args).startAt s := by
  by_cases slotted : ∃ slot words, args = .i32 slot :: words
  · obtain ⟨slot, words, rfl⟩ := slotted
    have fatal : s.host.config.indirectCalls = .fatal := by
      cases policy : s.host.config.indirectCalls with
      | fatal => rfl
      | resolve => simp [looks, policy] at not
    simp [run_slot, startAt_bind, fatal]
  · rw [run, run, t.runIn_of_not_slot c slotted, t.runIn_of_not_slot c' slotted]

end Trampoline

namespace HostFunction

/-- Does the call get as far as looking for an export of its caller? -/
def looks (s : Store) (args : List Val) : HostFunction → Bool
  | primitive p => p.looks s args
  | trampoline _ => Trampoline.looks s args
  | syscall _ => false
  | wasi w => w.looks args

def missing (args : List Val) : HostFunction → HostError
  | trampoline _ => match args with
    | .i32 slot :: _ => .badTableEntry slot.toNat "guest exports no function table"
    | _ => .noMemory
  | _ => .noMemory

variable {f : HostFunction} {s : Store} {args : List Val}

theorem startAt_run_of_not_looks (not : f.looks s args = false) (c c' : Context) :
    (f.run c args).startAt s = (f.run c' args).startAt s := by
  cases f with
  | primitive p => exact p.startAt_run_of_not_looks not c c'
  | trampoline t => exact t.startAt_run_of_not_looks not c c'
  | syscall => rfl
  | wasi w => exact w.startAt_run_of_not_looks not c c'

theorem ends_run_of_looks (looking : f.looks s args = true) {c : Context}
    (memory : c.memoryExported = false) (table : c.tableExported = false) :
    ((f.run c args).startAt s).Ends (.error (.host (f.missing args)), s) := by
  cases f with
  | primitive p => exact Primitive.ends_run_of_looks looking memory
  | trampoline t =>
    simp only [looks] at looking
    unfold Trampoline.looks at looking
    split at looking
    · simp [run_eq, Trampoline.run_slot, Trampoline.resolve, startAt_bind, of_decide_eq_true looking, table,
        missing, Action.Ends]
    · cases looking
  | syscall => cases looking
  | wasi w => exact WasiCall.ends_run_of_looks looking memory

end HostFunction

end GuestHost
