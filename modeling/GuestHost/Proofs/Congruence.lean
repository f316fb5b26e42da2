import GuestHost.Proofs.Arms
import GuestHost.Proofs.Bounds
import GuestHost.Proofs.Simulation

/-!
Relations between runs that guests and host functions keep. Only a fatal error looks at the fatal
policy, only the delivery of output at where output goes, and only calls that need a feature at
whether it is there. So a relation that code of the guest keeps is kept by all that guests and host
functions do once it is kept by a few primitive runs more. Fatal errors are those of the functions
that the guest was linked with.
-/

namespace GuestHost

open Wasm (Val Module)

/-- States of the host that differ in nothing but the configuration and the output. -/
structure HostState.Agree (h h' : HostState) : Prop where
  staging : h.staging = h'.staging
  notices : h.notices = h'.notices
  origin : h.origin = h'.origin

structure Store.Agree (s s' : Store) : Prop where
  space : s.toSpace = s'.toSpace
  host : s.host.Agree s'.host

namespace Store.Agree

theorem refl (s : Store) : s.Agree s := ⟨rfl, ⟨rfl, rfl, rfl⟩⟩

variable {s s' : Store}

theorem memory (h : s.Agree s') : s.memory = s'.memory := congrArg Wasm.Space.memory h.space

theorem table (h : s.Agree s') : s.table = s'.table := congrArg Wasm.Space.table h.space

end Store.Agree

def Config.under (p : FatalPolicy) (c : Config) : Config := { c with fatal := p }

def HostState.under (p : FatalPolicy) (h : HostState) : HostState :=
  { h with config := h.config.under p }

def Store.under (p : FatalPolicy) (s : Store) : Store := { s with host := s.host.under p }

theorem Store.agree_under (p p' : FatalPolicy) (s : Store) : (s.under p).Agree (s.under p') :=
  ⟨rfl, ⟨rfl, rfl, rfl⟩⟩

def HostError.isFatal : HostError → Bool
  | unsupported _ | aborted _ => true
  | _ => false

/-- Errors that running functions do not simply fail with: those that concern the imports, and those
that are reported first. -/
def HostError.isReserved (e : HostError) : Bool := e.isConfiguration || e.isFatal

def HostFunction.escalation : HostFunction → HostError
  | primitive .abort => .aborted "abort"
  | f => .unsupported f.name

theorem HostFunction.escalation_isFatal (f : HostFunction) : f.escalation.isFatal = true := by
  unfold escalation
  split
  · rfl
  · rfl

def Image.Raises (i : Image) (Raised : HostError → Prop) : Prop :=
  ∀ type f, Code.host type f ∈ i.code → Raised f.escalation

theorem Image.raises_fatal (i : Image) : i.Raises (·.isFatal = true) :=
  fun _ f _ => f.escalation_isFatal

inductive Feature
  | heapGrowth
  | indirectCalls
  | wasi
  deriving DecidableEq, Repr

def Config.has (c : Config) : Feature → Bool
  | .heapGrowth => c.heapGrowth
  | .indirectCalls => c.indirectCalls = .resolve
  | .wasi => c.wasi

/-- Only reports of fatal errors are logged under their target. -/
def Request.isReport : Request → Bool
  | log record => record.target == fatalTarget
  | _ => false

def Request.isGrave : Request → Bool
  | log record => record.target == fatalTarget || record.level == .error
  | _ => false

theorem Request.isReport_of_isGrave {q : Request} (plain : q.isGrave = false) :
    q.isReport = false := by
  cases q with
  | log record => exact (Bool.or_eq_false_iff.mp plain).1
  | _ => rfl

def Request.isOffer : Request → Bool
  | offer .. => true
  | _ => false

theorem WasiCall.startAt_deliver (stream : OutputStream) (chunks : List (List UInt8)) (s : Store) :
    (deliver stream chunks).startAt s =
      if s.host.config.captureOutput then
        .done (.ok true, { s with host := s.host.capture stream chunks.flatten })
      else (sendAll stream chunks).startAt s := by
  rw [deliver, Run.startAt_bind, Run.startAt_host, Action.done_bind]
  dsimp only
  split
  · rfl
  · rfl

namespace Run

/-- A call that is fatal under its name where the feature is missing. -/
def needing {α : Type} (f : Feature) (call : String) (x : Run α) : Run α := do
  let host ← Run.host
  if host.config.has f then x else Run.unsupported call

theorem startAt_needing {α : Type} (f : Feature) (call : String) (x : Run α) (s : Store) :
    (needing f call x).startAt s =
      if s.host.config.has f then x.startAt s else (Run.unsupported call : Run α).startAt s := by
  rw [needing, startAt_bind, startAt_host, Action.done_bind]
  dsimp only
  split
  · rfl
  · rfl

/-- What a relation between runs has to satisfy to be kept by code of the guest. The store is looked
at through what agreeing stores have in common. -/
structure CodeCongruence (Rel : (α : Type) → Run α → Run α → Prop) : Prop where
  pure {α : Type} (a : α) : Rel α (Pure.pure a) (Pure.pure a)
  bind {α β : Type} {x y : Run α} {f g : α → Run β} :
    Rel α x y → (∀ a, Rel β (f a) (g a)) → Rel β (x >>= f) (y >>= g)
  fault {α : Type} (f : Wasm.Fault) : f.isLinking = false → Rel α (Run.fault f) (Run.fault f)
  store {α : Type} {f g : Store → Run α} :
    (∀ s s' : Store, s.Agree s' → Rel α (f s) (g s')) → Rel α (Run.store >>= f) (Run.store >>= g)
  modify (f : Store → Store) :
    (∀ (s : Store) (h : HostState), f { s with host := h } = { f s with host := h }) →
      Rel PUnit (modify f) (modify f)

namespace CodeCongruence

variable {Rel : (α : Type) → Run α → Run α → Prop}

theorem setMemory (h : CodeCongruence Rel) (m : LinearMemory) :
    Rel Unit (Run.setMemory m) (Run.setMemory m) := h.modify _ fun _ _ => rfl

/-- The guest's own part of the store is the same in stores that agree. -/
theorem simulation (h : CodeCongruence Rel) : Simulation (A := Action) (B := Action) Rel where
  pure := h.pure
  bind := h.bind
  fault := h.fault
  space := by
    have seen : Rel _ (Run.store >>= fun s => Pure.pure s.toSpace)
        (Run.store >>= fun s => Pure.pure s.toSpace) := h.store fun s s' agree => by
      rw [agree.space]
      exact h.pure _
    exact seen
  setSpace _ := h.modify _ fun _ _ => rfl
  entered _ _ := h.pure ()

end CodeCongruence

theorem CodeCongruence.sendAll {Rel : (α : Type) → Run α → Run α → Prop} (h : CodeCongruence Rel)
    (stream : OutputStream)
    (offer : ∀ bytes, Rel Bool (Run.ask (.offer stream bytes)) (Run.ask (.offer stream bytes)))
    (chunks : List (List UInt8)) :
    Rel Bool (WasiCall.sendAll stream chunks) (WasiCall.sendAll stream chunks) := by
  induction chunks with
  | nil => exact h.pure true
  | cons chunk chunks ih =>
    apply h.bind (offer chunk)
    intro taken
    cases taken with
    | true => exact ih
    | false => exact h.pure false

/-- What it has to satisfy to be kept by host functions too. Output goes out in one way only, and
so are features looked for. The fatal errors are those that may be raised. -/
structure Congruence (Raised : HostError → Prop) (Rel : (α : Type) → Run α → Run α → Prop) :
    Prop extends CodeCongruence Rel where
  fail {α : Type} (e : HostError) : e.isReserved = false → Rel α (Run.fail e) (Run.fail e)
  fatal {α : Type} (e : HostError) : Raised e → Rel α (Run.fatal e) (Run.fatal e)
  ask (q : Request) : q.isGrave = false → q.isOffer = false →
    Rel q.Answer (Run.ask q) (Run.ask q)
  deliver (stream : OutputStream) (chunks : List (List UInt8)) :
    Rel Bool (WasiCall.deliver stream chunks) (WasiCall.deliver stream chunks)
  needing {α : Type} (f : Feature) (call : String) {x y : Run α} : Raised (.unsupported call) →
    Rel α x y → Rel α (Run.needing f call x) (Run.needing f call y)
  stage (r : StagingRegister) :
    Rel Unit (modifyHost fun h => { h with staging := r })
      (modifyHost fun h => { h with staging := r })
  record (notice : BitVec 32) :
    Rel Unit (modifyHost (·.recordGrowth notice)) (modifyHost (·.recordGrowth notice))

end Run

def Primitive.growTo (c : Context) (requested : BitVec 32) : Run (BitVec 32) := do
  let m ← c.memory
  if requested.toNat ≤ m.size then return 1
  else
    let delta := missingPages m requested.toNat
    match m.grow delta with
    | some grown =>
      Run.setMemory grown
      Run.log .debug target
        s!"emscripten_resize_heap: grew from {m.pages} to {m.pages + delta} pages"
      return 1
    | none =>
      Run.log .warn target
        s!"emscripten_resize_heap: cannot grow by {delta} pages: failed to grow memory by `{delta}`"
      return 0

theorem Primitive.resize_eq_needing (c : Context) (requested : BitVec 32) :
    resize c requested =
      Run.needing .heapGrowth "emscripten_resize_heap" (growTo c requested) := by
  refine congrArg (Bind.bind Run.host) (funext fun host => ?_)
  rw [Config.has]
  cases host.config.heapGrowth <;> rfl

def Trampoline.callSlot (c : Context) (t : Trampoline) (slot : BitVec 32) (args : List Val) :
    Run (List Val) := do
  let func ← resolve c slot.toNat
  Run.log .debug "embridge::trampoline" s!"{t.name}: calling table slot {slot.toNat}"
  match c.callee func with
  | some callee => t.dispatch callee args
  | none => Run.fault .malformed

theorem Trampoline.run_eq_needing (c : Context) (t : Trampoline) (slot : BitVec 32)
    (args : List Val) :
    t.run c (.i32 slot :: args) =
      Run.needing .indirectCalls t.name (t.callSlot c slot args) := by
  rw [run_slot, Run.needing]
  refine congrArg (Bind.bind Run.host) (funext fun host => ?_)
  rw [Config.has]
  cases host.config.indirectCalls <;> rfl

namespace Run.Congruence

variable {Raised : HostError → Prop} {Rel : (α : Type) → Run α → Run α → Prop} {α β : Type}
  {callee : Nat → Option Callee}

theorem host (h : Congruence Raised Rel) {f g : HostState → Run α}
    (same : ∀ h h' : HostState, h.Agree h' → Rel α (f h) (g h')) :
    Rel α (Run.host >>= f) (Run.host >>= g) :=
  h.store fun s s' agree => same s.host s'.host agree.host

theorem ofExcept (h : Congruence Raised Rel) {x : Except HostError α} (bounds : BoundsOnly x) :
    Rel α (Run.ofExcept x) (Run.ofExcept x) := by
  cases x with
  | error e =>
    obtain ⟨_, _, _, rfl⟩ := bounds e rfl
    exact h.fail _ rfl
  | ok a => exact h.pure a

theorem log (h : Congruence Raised Rel) (level : Log.Level) (target text : String)
    (plain : (target == fatalTarget || level == .error) = false) :
    Rel Unit (Run.log level target text) (Run.log level target text) :=
  h.ask (.log ⟨level, target, text⟩) plain rfl

/-! Host functions, in two contexts that differ only in what they call -/

theorem memory (h : Congruence Raised Rel) (c : Context) :
    Rel _ c.memory { c with callee := callee }.memory := by
  apply h.store
  intro s s' agree
  simp only [← agree.memory]
  split
  · exact h.pure _
  · exact h.fail _ rfl

theorem table? (h : Congruence Raised Rel) (c : Context) :
    Rel _ c.table? { c with callee := callee }.table? := by
  apply h.store
  intro s s' agree
  simp only [← agree.table]
  exact h.pure _

theorem edit (h : Congruence Raised Rel) {m : LinearMemory} {edit : Memory → Except HostError Memory}
    (bounds : BoundsOnly (edit m.toMemory)) {f g : Unit → Run α} (same : Rel _ (f ()) (g ())) :
    Rel _ (Run.ofExcept (m.edit edit) >>= fun m => Run.setMemory m >>= f)
      (Run.ofExcept (m.edit edit) >>= fun m => Run.setMemory m >>= g) :=
  h.bind (h.ofExcept (.edit m bounds)) fun m => h.bind (h.setMemory m) fun _ => same

theorem growTo (h : Congruence Raised Rel) (c : Context) (requested : BitVec 32) :
    Rel _ (Primitive.growTo c requested)
      (Primitive.growTo { c with callee := callee } requested) := by
  apply h.bind (h.memory c)
  intro m
  split
  · exact h.pure _
  · dsimp only
    split
    · exact h.bind (h.setMemory _) fun _ => h.bind (h.log _ _ _ (by decide)) fun _ => h.pure _
    · exact h.bind (h.log _ _ _ (by decide)) fun _ => h.pure _

theorem resize (h : Congruence Raised Rel) (c : Context)
    (raised : Raised (HostFunction.primitive .resizeHeap).escalation) (requested : BitVec 32) :
    Rel _ (Primitive.resize c requested)
      (Primitive.resize { c with callee := callee } requested) := by
  rw [Primitive.resize_eq_needing, Primitive.resize_eq_needing]
  exact h.needing _ _ raised (h.growTo c requested)

theorem primitive (h : Congruence Raised Rel) (c : Context) (p : Primitive)
    (raised : Raised (HostFunction.primitive p).escalation) (args : List Val) :
    Rel _ (p.run c args) (p.run { c with callee := callee } args) := by
  obtain ⟨F, run_eq, arm⟩ := p.exists_arm args
  rw [run_eq, run_eq]
  cases arm with
  | malformed => exact h.fault _ rfl
  | notify notice =>
    have told := h.log .info Primitive.target
      s!"Called into emscripten_notify_memory_growth with argument {notice.toInt}" (by decide)
    exact h.bind (h.bind told fun _ => h.record notice) fun _ => h.pure _
  | setTemp value => exact h.bind (h.stage ⟨value⟩) fun _ => h.pure _
  | getTemp =>
    apply h.host
    intro host host' agree
    rw [agree.staging]
    exact h.pure _
  | resize requested => exact h.bind (h.resize c raised requested) fun _ => h.pure _
  | abort => exact h.fatal _ raised
  | longjmp => exact h.fatal _ raised
  | copy dest src length =>
    have copied : Rel _ (Primitive.copy c dest src length)
        (Primitive.copy { c with callee := callee } dest src length) :=
      h.bind (h.memory c) fun m =>
        h.bind (h.ofExcept (.edit m (.copyWithin _ _ _ _))) fun m => h.setMemory m
    exact h.bind copied fun _ => h.pure _

theorem syscall (h : Congruence Raised Rel) (s : Syscall)
    (raised : Raised (HostFunction.syscall s).escalation) : Rel _ s.run s.run := by
  unfold Syscall.run
  split
  · exact h.bind (h.ask _ rfl rfl) fun _ => h.pure _
  · exact h.fatal _ raised

theorem write (h : Congruence Raised Rel) (c : Context) (fd iovs count nwritten : BitVec 32) :
    Rel _ (WasiCall.write c fd iovs count nwritten)
      (WasiCall.write { c with callee := callee } fd iovs count nwritten) := by
  unfold WasiCall.write
  split
  · exact h.pure _
  · refine h.bind (h.memory c) fun m => h.bind (h.ofExcept (.gather _ _ _ _)) fun vs => ?_
    dsimp only
    split
    · exact h.pure _
    · apply h.bind (h.deliver _ _)
      intro sent
      split
      · exact h.edit (.write _ _ _) (h.pure _)
      · exact h.pure _

theorem storeU32 (h : Congruence Raised Rel) (c : Context) (pointer word : BitVec 32) :
    Rel _ (WasiCall.storeU32 c pointer word)
      (WasiCall.storeU32 { c with callee := callee } pointer word) :=
  h.bind (h.memory c) fun m => h.bind (h.ofExcept (.edit m (.write _ _ _))) fun m => h.setMemory m

theorem emptySizes (h : Congruence Raised Rel) (c : Context) (count size : BitVec 32) :
    Rel _ (WasiCall.emptySizes c count size)
      (WasiCall.emptySizes { c with callee := callee } count size) :=
  h.bind (h.storeU32 c count 0) fun _ => h.bind (h.storeU32 c size 0) fun _ => h.pure _

theorem readClock (h : Congruence Raised Rel) (clock : Clock) :
    Rel _ (WasiCall.readClock clock) (WasiCall.readClock clock) := by
  apply h.bind (h.ask _ rfl rfl)
  intro now
  cases clock with
  | realtime => exact h.pure _
  | monotonic =>
    apply h.host
    intro host host' agree
    have same : host.elapsed now = host'.elapsed now := by
      rw [HostState.elapsed, HostState.elapsed, agree.origin]
    rw [same]
    exact h.pure _

theorem clockTime (h : Congruence Raised Rel) (c : Context) (id pointer : BitVec 32) :
    Rel _ (WasiCall.clockTime c id pointer)
      (WasiCall.clockTime { c with callee := callee } id pointer) := by
  unfold WasiCall.clockTime
  split
  · exact h.pure _
  · exact h.bind (h.readClock _) fun now => h.bind (h.memory c) fun m =>
      h.edit (.write _ _ _) (h.pure _)

theorem random (h : Congruence Raised Rel) (c : Context) (buffer length : BitVec 32) :
    Rel _ (WasiCall.random c buffer length)
      (WasiCall.random { c with callee := callee } buffer length) :=
  h.bind (h.memory c) fun m =>
    h.bind (h.ofExcept (.checkBounds _ _ m.size)) fun _ =>
      h.bind (h.ask _ rfl rfl) fun _ => h.edit (.write _ _ _) (h.pure _)

theorem wasi (h : Congruence Raised Rel) (c : Context) (w : WasiCall)
    (raised : Raised (HostFunction.wasi w).escalation) (args : List Val) :
    Rel _ (w.run c args) (w.run { c with callee := callee } args) := by
  obtain ⟨F, run_eq, arm⟩ := w.exists_arm args
  rw [run_eq, run_eq]
  cases arm with
  | malformed => exact h.fault _ rfl
  | write fd iovs count nwritten =>
    exact h.bind (h.write c fd iovs count nwritten) fun _ => h.pure _
  | exit code => exact h.fail _ rfl
  | sizes _ _ count size => exact h.bind (h.emptySizes c count size) fun _ => h.pure _
  | nothing => exact h.pure _
  | clock id pointer => exact h.bind (h.clockTime c id pointer) fun _ => h.pure _
  | random buffer length => exact h.bind (h.random c buffer length) fun _ => h.pure _
  | unsupported => exact h.fatal _ raised

theorem resolve (h : Congruence Raised Rel) (c : Context) (slot : Nat) :
    Rel _ (Trampoline.resolve c slot) (Trampoline.resolve { c with callee := callee } slot) := by
  apply h.bind (h.table? c)
  intro table
  split
  · exact h.fail _ rfl
  · split
    · exact h.fail _ rfl
    · exact h.fail _ rfl
    · exact h.pure _

theorem callSlot (h : Congruence Raised Rel) (c : Context)
    (related : ∀ func, Option.Rel (CalleeRel Rel) (c.callee func) (callee func)) (t : Trampoline)
    (slot : BitVec 32) (args : List Val) :
    Rel _ (t.callSlot c slot args) (t.callSlot { c with callee := callee } slot args) := by
  refine h.bind (h.resolve c _) fun func => h.bind (h.log _ _ _ (by decide)) fun _ => ?_
  have same := related func
  dsimp only
  generalize c.callee func = target, callee func = target' at same ⊢
  cases same with
  | none => exact h.fault _ rfl
  | some same => exact h.simulation.dispatch t same _

theorem trampoline (h : Congruence Raised Rel) (c : Context)
    (related : ∀ func, Option.Rel (CalleeRel Rel) (c.callee func) (callee func)) (t : Trampoline)
    (raised : Raised (HostFunction.trampoline t).escalation) (args : List Val) :
    Rel _ (t.run c args) (t.run { c with callee := callee } args) := by
  by_cases slotted : ∃ slot words, args = .i32 slot :: words
  · obtain ⟨slot, words, rfl⟩ := slotted
    rw [Trampoline.run_eq_needing, Trampoline.run_eq_needing]
    exact h.needing _ _ raised (h.callSlot c related t slot words)
  · rw [Trampoline.run, Trampoline.run, t.runIn_of_not_slot c slotted,
      t.runIn_of_not_slot _ slotted]
    exact h.fault _ rfl

theorem hostFunction (h : Congruence Raised Rel) (c : Context)
    (related : ∀ func, Option.Rel (CalleeRel Rel) (c.callee func) (callee func))
    (f : HostFunction) (raised : Raised f.escalation) (args : List Val) :
    Rel _ (f.run c args) (f.run { c with callee := callee } args) := by
  cases f with
  | primitive p => exact h.primitive c p raised args
  | trampoline t => exact h.trampoline c related t raised args
  | syscall s => exact h.syscall s raised
  | wasi w => exact h.wasi c w raised args

/-! Images and the bringing up of a guest -/

theorem hostRel (h : Congruence Raised Rel) {i : Image} (raises : i.Raises Raised) :
    i.HostRel (A := Action) (B := Action) Rel := by
  rintro type f member c ⟨_, _, _⟩ ⟨rfl, rfl, related⟩ args _
  exact h.hostFunction c related f (raises type f member) args

theorem startUp (h : Congruence Raised Rel) (m : Module) {i : Image} (raises : i.Raises Raised) :
    Rel _ (Guest.startUp m i) (Guest.startUp m i) := h.simulation.startUp (h.hostRel raises) m

theorem call (h : Congruence Raised Rel) {i : Image} (raises : i.Raises Raised) (caller : Caller)
    (func : Nat) (args : List Val)
    (typed : ∀ code, i.code[func]? = some code → args.map Val.type = code.type.params) :
    Rel _ (i.call caller func args) (i.call caller func args) :=
  h.simulation.call (h.hostRel raises) caller _ func args typed

end Congruence

end Run

end GuestHost
