import GuestHost.Proofs.HeapGrowth
import GuestHost.Proofs.MemoryWords
import GuestHost.Proofs.WriteCount

/-!
Host functions on machine words. Main statement: where 32-bit addresses go beyond the memory, no
word that a host function computes wraps and nothing that it looks up is missing, so it does on
words what it does on unbounded numbers; and a write that succeeds stores how many bytes it put out.
-/

namespace GuestHost

open Wasm (Val)

namespace HostState

theorem capture_nil (h : HostState) (stream : OutputStream) : h.capture stream [] = h := by
  cases stream <;> simp [capture]

theorem capture_append (h : HostState) (stream : OutputStream) (bytes more : List UInt8) :
    (h.capture stream bytes).capture stream more = h.capture stream (bytes ++ more) := by
  cases stream <;> simp [capture]

end HostState

/-- A run that comes to nothing where an operation on words or a look at an index does. -/
abbrev CheckedRun (α : Type) : Type := OptionT Run α

namespace OnWords

open Word

variable {α β : Type}

/-! The host functions that compute with words or look at indices -/

def access (x : Checked α) : CheckedRun α := OptionT.mk (Run.ofExcept x.run)

def edit (m : LinearMemory) (x : Checked Memory) : CheckedRun Unit := do
  let contents ← access x
  Run.setMemory (m.put contents)

def deliver (keeps : Bool) (stream : OutputStream) (m : Memory) : List Iovec → CheckedRun Bool
  | [] => return true
  | v :: vs => do
    let bytes ← access (read m v.base v.length)
    if keeps then
      Run.modifyHost (·.capture stream bytes)
      deliver keeps stream m vs
    else if ← Run.ask (.offer stream bytes) then deliver keeps stream m vs
    else return false

def writeOut (c : Context) (fd iovs count nwritten : BitVec 32) : CheckedRun (BitVec 32) := do
  match WasiCall.stream? fd with
  | none => return WasiCall.Errno.badFile
  | some stream =>
    let host ← Run.host
    let m ← c.memory
    let (vs, total) ← access (gather m.toMemory iovs count nwritten)
    if size m.toMemory < total then return WasiCall.Errno.invalid
    else if ← deliver host.config.captureOutput stream m.toMemory vs then
      let total ← (narrow? 32 total).getM
      edit m (writeU32 m.toMemory nwritten total)
      return WasiCall.Errno.success
    else return WasiCall.Errno.io

def storeU32 (c : Context) (pointer word : BitVec 32) : CheckedRun Unit := do
  let m ← c.memory
  edit m (writeU32 m.toMemory pointer word)

def emptySizes (c : Context) (count size : BitVec 32) : CheckedRun (BitVec 32) := do
  storeU32 c count 0
  storeU32 c size 0
  return WasiCall.Errno.success

def clockTime (c : Context) (id pointer : BitVec 32) : CheckedRun (BitVec 32) := do
  match WasiCall.clock? id with
  | none => return WasiCall.Errno.invalid
  | some clock =>
    let now ← WasiCall.readClock clock
    let m ← c.memory
    edit m (writeU64 m.toMemory pointer now)
    return WasiCall.Errno.success

def random (c : Context) (buffer length : BitVec 32) : CheckedRun (BitVec 32) := do
  let m ← c.memory
  let _ ← access (liftM (checkBounds (widen buffer) (widen length) (size m.toMemory)))
  let bytes ← Run.ask (.random length.toNat)
  edit m (write m.toMemory buffer bytes.toList)
  return WasiCall.Errno.success

def answer (x : CheckedRun (BitVec 32)) : CheckedRun (List Val) := do
  let word ← x
  return [.i32 word]

def runWasi (c : Context) (w : WasiCall) (args : List Val) : CheckedRun (List Val) :=
  match w, args with
  | .fdWrite, [.i32 fd, .i32 iovs, .i32 count, .i32 nwritten] =>
    answer (writeOut c fd iovs count nwritten)
  | .environSizesGet, [.i32 count, .i32 size] => answer (emptySizes c count size)
  | .argsSizesGet, [.i32 count, .i32 size] => answer (emptySizes c count size)
  | .clockTimeGet, [.i32 id, .i64 _, .i32 pointer] => answer (clockTime c id pointer)
  | .randomGet, [.i32 buffer, .i32 length] => answer (random c buffer length)
  | w, args => w.run c args

def resize (c : Context) (requested : BitVec 32) : CheckedRun (BitVec 32) := do
  let host ← Run.host
  if !host.config.heapGrowth then
    (Run.unsupported "emscripten_resize_heap" : Run (BitVec 32))
  else
    let m ← c.memory
    if widen requested ≤ size m.toMemory then return 1
    else
      let missing ← (sub? (widen requested) (size m.toMemory)).getM
      let delta ← (ceilDiv? missing (BitVec.ofNat 64 pageSize)).getM
      match m.grow delta.toNat with
      | some grown =>
        Run.setMemory grown
        let previous := BitVec.ofNat 64 m.pages
        let pages ← (add? previous delta).getM
        Run.log .debug Primitive.target
          s!"emscripten_resize_heap: grew from {previous.toNat} to {pages.toNat} pages"
        return 1
      | none =>
        Run.log .warn Primitive.target
          s!"emscripten_resize_heap: cannot grow by {delta.toNat} pages: failed to grow memory by `{delta.toNat}`"
        return 0

def copy (c : Context) (dest src length : BitVec 32) : CheckedRun Unit := do
  let m ← c.memory
  edit m (copyWithin m.toMemory dest src length)

def runPrimitive (c : Context) (p : Primitive) (args : List Val) : CheckedRun (List Val) :=
  match p, args with
  | .resizeHeap, [.i32 requested] => answer (resize c requested)
  | .memcpyBig, [.i32 dest, .i32 src, .i32 length] => do
    copy c dest src length
    return []
  | p, args => p.run c args

def setSlot? (slots : List Val) (i : Nat) (v : Val) : Option (List Val) :=
  if i < slots.length then some (slots.set i v) else none

def runSyscall (s : Syscall) (slots : List Val) : CheckedRun (List Val) :=
  match s with
  | .getpid => do
    let pid ← Run.ask .pid
    (setSlot? slots 0 (.i32 pid)).getM
  | s => (Run.unsupported s.name : Run (List Val))

def firstWord : List Val → BitVec 32
  | .i32 w :: _ => w
  | _ => 0

def redirect (c : Context) (t : Trampoline) (args : List Val) : CheckedRun (List Val) := do
  let host ← Run.host
  match host.config.indirectCalls with
  | .fatal => (Run.unsupported t.name : Run (List Val))
  | .resolve =>
    let slot := (firstWord args).toNat
    let func ← Trampoline.resolve c slot
    Run.log .debug "embridge::trampoline" s!"{t.name}: calling table slot {slot}"
    let rest ← args.tail?.getM
    match c.callee func with
    | some callee => t.dispatch callee rest
    | none => (Run.fault .malformed : Run (List Val))

/-- The type of a trampoline as its name spells it: the letter behind `invoke_` tells the result,
and each one after it stands for an argument. -/
def type? (t : Trampoline) : Option Wasm.FuncType := do
  let start := BitVec.ofNat 64 "invoke_".utf8ByteSize
  let letters ← sub? (BitVec.ofNat 64 t.name.utf8ByteSize) start
  let arity ← sub? letters 1
  let count ← add? arity 1
  let letter ← t.name.toUTF8[start.toNat]?
  return ⟨List.replicate count.toNat .i32, if letter = 'i'.toUInt8 then [.i32] else []⟩

/-- What a host function does on words, with `slots` for its results. -/
def run (c : Context) (f : HostFunction) (args slots : List Val) : CheckedRun (List Val) :=
  match f with
  | .primitive p => runPrimitive c p args
  | .trampoline t => redirect c t args
  | .syscall s => runSyscall s slots
  | .wasi w => runWasi c w args

/-! What is done on words and on numbers alike -/

/-- From the store `s`, a run on words does what a run on numbers does. -/
def Exact (s : Store) (x : CheckedRun α) (y : Run α) : Prop :=
  x.run.startAt s = (some <$> y).startAt s

theorem exact_lift (s : Store) (y : Run α) : Exact s (liftM y) y := by
  have lifted : (liftM y : CheckedRun α).run = some <$> y := by
    rw [← bind_pure_comp]
    rfl
  rw [Exact, lifted]

theorem Exact.of_eq {s : Store} {x : CheckedRun α} {y : Run α} (same : x = liftM y) :
    Exact s x y := by
  rw [same]
  exact exact_lift s y

theorem Exact.bind {s : Store} {x : CheckedRun α} {y : Run α} {f : α → CheckedRun β}
    {g : α → Run β} (first : Exact s x y)
    (next : (y.startAt s).Always fun p => ∀ a, p.1 = .ok a → Exact p.2 (f a) (g a)) :
    Exact s (x >>= f) (y >>= g) := by
  rw [Exact, OptionT.run_bind, Option.elimM, Run.startAt_bind, first, Run.startAt_map,
    Run.startAt_map, Run.startAt_bind, Action.bind_assoc, Action.bind_assoc]
  apply next.bind_congr
  intro p same
  rcases p with ⟨stop | a, s'⟩
  · rfl
  · exact (same a rfl).trans (Run.startAt_map ..)

theorem Exact.then {s : Store} {x : CheckedRun α} {y : Run α} {f : α → CheckedRun β}
    {g : α → Run β} (first : Exact s x y) (next : ∀ a s', Exact s' (f a) (g a)) :
    Exact s (x >>= f) (y >>= g) :=
  first.bind (Action.always_of_forall _ fun p a _ => next a p.2)

theorem Exact.silent {s : Store} {y : Run α} {f : α → CheckedRun β} {g : α → Run β}
    (silent : Run.Silent y) (next : ∀ a, Exact s (f a) (g a)) :
    Exact s (liftM y >>= f) (y >>= g) := by
  apply (exact_lift s y).bind
  apply (silent s).mono
  intro p same a _
  rw [same]
  exact next a

theorem Exact.host {s : Store} {f : HostState → CheckedRun α} {y : Run α}
    (next : Exact s (f s.host) y) : Exact s (liftM Run.host >>= f) y := next

theorem Exact.ite {s : Store} {p q : Prop} [Decidable p] [Decidable q] {x x' : CheckedRun α}
    {y y' : Run α} (same : p ↔ q) (yes : q → Exact s x y) (no : ¬ q → Exact s x' y') :
    Exact s (if p then x else x') (if q then y else y') := by
  by_cases holds : q
  · rw [if_pos (same.mpr holds), if_pos holds]
    exact yes holds
  · rw [if_neg (holds ∘ same.mp), if_neg holds]
    exact no holds

theorem Exact.memory {c : Context} {s : Store} {f : LinearMemory → CheckedRun β}
    {g : LinearMemory → Run β} (next : ∀ m, c.memoryIn s = some m → Exact s (f m) (g m)) :
    Exact s (liftM c.memory >>= f) (c.memory >>= g) := by
  apply (exact_lift s _).bind
  rw [ContextIn.startAt_memory, Action.always_done]
  intro m found
  cases held : c.memoryIn s with
  | none => simp [held] at found
  | some m' =>
    simp only [held] at found ⊢
    cases found
    exact next m held

theorem Exact.answer {s : Store} {x : CheckedRun (BitVec 32)} {y : Run (BitVec 32)}
    (first : Exact s x y) : Exact s (answer x) (WasiCall.answer y) :=
  first.then fun _ s' => exact_lift s' (pure _)

theorem access_liftM (x : Except HostError α) : access (liftM x) = liftM (Run.ofExcept x) := by
  cases x with
  | error e => rfl
  | ok a => rfl

theorem edit_liftM (m : LinearMemory) (f : Memory → Except HostError Memory) :
    edit m (liftM (f m.toMemory)) = liftM (do
      let m ← Run.ofExcept (m.edit f)
      Run.setMemory m) := by
  rw [edit, access_liftM, LinearMemory.edit]
  cases f m.toMemory with
  | error e => rfl
  | ok contents => rfl

theorem edit_return (m : LinearMemory) (f : Memory → Except HostError Memory) (a : α) :
    (do
      edit m (liftM (f m.toMemory))
      return a) = (liftM (do
      let m ← Run.ofExcept (m.edit f)
      Run.setMemory m
      return a) : CheckedRun α) := by
  rw [edit_liftM, LinearMemory.edit]
  cases f m.toMemory with
  | error e => rfl
  | ok contents => rfl

/-! Delivery -/

theorem startAt_keep {m : Memory} (small : m.size < 2 ^ 32) (stream : OutputStream)
    (vs : List Iovec) (fit : ∀ v ∈ vs, v.base.toNat + v.length.toNat ≤ m.size) (s : Store) :
    (deliver true stream m vs).run.startAt s = .done (.ok (some true),
      { s with host := s.host.capture stream (vs.map (Iovec.bytes m)).flatten }) := by
  induction vs generalizing s with
  | nil =>
    rw [List.map_nil, List.flatten_nil, HostState.capture_nil]
    rfl
  | cons v vs ih =>
    have kept : (deliver true stream m (v :: vs)).run.startAt s =
        (deliver true stream m vs).run.startAt
          { s with host := s.host.capture stream (Iovec.bytes m v) } := by
      rw [deliver, read_eq small, Memory.read_of_le (fit v (.head _))]
      rfl
    rw [kept, ih (fun w member => fit w (.tail _ member)), List.map_cons, List.flatten_cons,
      HostState.capture_append]

theorem exact_send {m : Memory} (small : m.size < 2 ^ 32) (stream : OutputStream)
    (vs : List Iovec) (fit : ∀ v ∈ vs, v.base.toNat + v.length.toNat ≤ m.size) (s : Store) :
    Exact s (deliver false stream m vs) (WasiCall.sendAll stream (vs.map (Iovec.bytes m))) := by
  induction vs generalizing s with
  | nil => exact exact_lift s (pure true)
  | cons v vs ih =>
    have offered : deliver false stream m (v :: vs) = do
        if ← Run.ask (.offer stream (Iovec.bytes m v)) then deliver false stream m vs
        else return false := by
      rw [deliver, read_eq small, Memory.read_of_le (fit v (.head _))]
      rfl
    rw [offered, List.map_cons, WasiCall.sendAll]
    apply (exact_lift s _).then
    intro taken s'
    exact Exact.ite Iff.rfl (fun _ => ih (fun w member => fit w (.tail _ member)) s')
      fun _ => exact_lift s' (pure false)

theorem exact_deliver {m : Memory} (small : m.size < 2 ^ 32) (stream : OutputStream)
    {vs : List Iovec} (fit : ∀ v ∈ vs, v.base.toNat + v.length.toNat ≤ m.size) (s : Store) :
    Exact s (deliver s.host.config.captureOutput stream m vs)
      (WasiCall.deliver stream (vs.map (Iovec.bytes m))) := by
  rw [Exact, Run.startAt_map, WasiCall.startAt_deliver]
  cases s.host.config.captureOutput with
  | true => exact startAt_keep small stream vs fit s
  | false => exact (exact_send small stream vs fit s).trans (Run.startAt_map ..)

/-! The host functions -/

/-- A larger size than that of the memory is less by a word, and the pages told of are a word. -/
theorem exists_pages {m : LinearMemory} (small : m.size < 2 ^ 32) {requested : BitVec 32}
    (larger : m.size < requested.toNat) :
    ∃ missing delta pages : BitVec 64,
      sub? (widen requested) (size m.toMemory) = some missing ∧
      ceilDiv? missing (BitVec.ofNat 64 pageSize) = some delta ∧
      add? (BitVec.ofNat 64 m.pages) delta = some pages ∧
      (BitVec.ofNat 64 m.pages).toNat = m.pages ∧
      delta.toNat = Primitive.missingPages m requested.toNat ∧
      pages.toNat = m.pages + Primitive.missingPages m requested.toNat := by
  have few : m.pages < 2 ^ 16 := by
    have whole := m.size_eq
    simp only [pageSize] at whole
    omega
  have page : (BitVec.ofNat 64 pageSize).toNat = pageSize := by decide
  have previous : (BitVec.ofNat 64 m.pages).toNat = m.pages := by
    rw [BitVec.toNat_ofNat, Nat.mod_eq_of_lt (by omega)]
  obtain ⟨missing, rest⟩ : ∃ missing : BitVec 64, missing.toNat = requested.toNat - m.size :=
    exists_toNat_eq (by omega)
  obtain ⟨delta, divided, value⟩ :=
    exists_ceilDiv? missing (BitVec.ofNat 64 pageSize) (by rw [page]; decide)
  rw [page, rest, ← Primitive.missingPages] at value
  have low : Primitive.missingPages m requested.toNat < 2 ^ 32 := by
    rw [Primitive.missingPages, pageSize]
    omega
  obtain ⟨pages, sum⟩ : ∃ pages : BitVec 64,
      pages.toNat = m.pages + Primitive.missingPages m requested.toNat :=
    exists_toNat_eq (by omega)
  refine ⟨missing, delta, pages, ?_, divided, ?_, previous, value, sum⟩
  · rw [sub?_eq_some_iff, toNat_widen, toNat_size small]
    omega
  · rw [add?_eq_some_iff, previous, value, sum]

section

variable {c : Context} {s : Store}

theorem exact_runSyscall (f : Syscall) {slots : List Val}
    (ready : slots.map Val.type = f.type.results) :
    Exact s (runSyscall f slots) f.run := by
  cases f with
  | getpid =>
    obtain ⟨slot, rfl⟩ : ∃ slot, slots = [slot] := by
      apply List.length_eq_one_iff.mp
      simpa [Syscall.type, Syscall.returns] using congrArg List.length ready
    exact (exact_lift s _).then fun pid s' => exact_lift s' (pure [Val.i32 pid])
  | _ => exact exact_lift s _

theorem exact_redirect (t : Trampoline) {args : List Val}
    (typed : args.map Val.type = t.type.params) :
    Exact s (redirect c t args) (t.run c args) := by
  cases args with
  | nil => cases typed
  | cons v rest =>
    cases v with
    | i32 slot =>
      apply Exact.silent Run.silent_host
      intro host
      cases host.config.indirectCalls with
      | fatal => exact exact_lift s _
      | resolve =>
        apply (exact_lift s _).then
        intro func s'
        apply (exact_lift s' _).then
        intro _ s''
        change Exact s'' (match c.callee func with
          | some callee => liftM (t.dispatch callee rest)
          | none => liftM (Run.fault .malformed : Run (List Val))) _
        cases c.callee func with
        | none => exact exact_lift s'' _
        | some callee => exact exact_lift s'' _
    | _ => cases typed

variable (small : ∀ m, c.memoryIn s = some m → m.size < 2 ^ 32)

include small

theorem exact_storeU32 (pointer word : BitVec 32) :
    Exact s (storeU32 c pointer word) (WasiCall.storeU32 c pointer word) := by
  apply Exact.memory
  intro m found
  apply Exact.of_eq
  rw [writeU32_eq (small m found)]
  exact edit_liftM m (·.writeU32 pointer.toNat word)

/-- The memory is as large when the second word is stored. -/
theorem exact_emptySizes (count size : BitVec 32) :
    Exact s (emptySizes c count size) (WasiCall.emptySizes c count size) := by
  apply (exact_storeU32 small count 0).bind
  rw [WasiCall.startAt_storeU32, Action.always_done]
  intro _ stored
  cases held : c.memoryIn s with
  | none => simp [held] at stored
  | some m =>
    by_cases fits : count.toNat + 4 ≤ m.size
    · simp only [if_pos fits]
      have still : ∀ m', c.memoryIn (WasiCall.stored s m count 0) = some m' →
          m'.size < 2 ^ 32 := by
        intro m' found
        rw [WasiCall.memoryIn_stored held] at found
        cases found
        rw [m.put_toMemory (Memory.size_store ..), Memory.size_store]
        exact small m held
      exact (exact_storeU32 still size 0).then fun _ s' => exact_lift s' (pure _)
    · simp [held, if_neg fits] at stored

theorem exact_clockTime (id pointer : BitVec 32) :
    Exact s (clockTime c id pointer) (WasiCall.clockTime c id pointer) := by
  unfold clockTime WasiCall.clockTime
  cases WasiCall.clock? id with
  | none => exact exact_lift s (pure _)
  | some clock =>
    apply Exact.silent (WasiCall.readClock_silent clock)
    intro now
    apply Exact.memory
    intro m found
    apply Exact.of_eq
    rw [writeU64_eq (small m found)]
    exact edit_return m (·.writeU64 pointer.toNat now) _

theorem exact_random (buffer length : BitVec 32) :
    Exact s (random c buffer length) (WasiCall.random c buffer length) := by
  apply Exact.memory
  intro m found
  have small := small m found
  rw [access_liftM]
  by_cases fits : buffer.toNat + length.toNat ≤ m.size
  · obtain ⟨r, checked, -, -⟩ :=
      checked_of_le small (widen buffer) (widen length) (by simpa using fits)
    rw [checked, GuestHost.checkBounds_of_le fits]
    change Exact s (liftM (Run.ask (.random length.toNat)) >>= _)
      (Run.ask (.random length.toNat) >>= _)
    apply (exact_lift s _).then
    intro bytes s'
    apply Exact.of_eq
    have counted : bytes.toList.length < 2 ^ 64 := by
      rw [Vector.length_toList]
      omega
    rw [write_eq small buffer counted]
    exact edit_return m (·.write buffer.toNat bytes.toList) _
  · have beyond := Nat.lt_of_not_le fits
    rw [checked_of_lt small (by simpa using beyond), GuestHost.checkBounds_of_lt beyond,
      toNat_widen, toNat_widen]
    exact exact_lift s (Run.fail _)

theorem exact_writeOut (fd iovs count nwritten : BitVec 32) :
    Exact s (writeOut c fd iovs count nwritten) (WasiCall.write c fd iovs count nwritten) := by
  unfold writeOut WasiCall.write
  cases WasiCall.stream? fd with
  | none => exact exact_lift s (pure _)
  | some stream =>
    refine Exact.host (Exact.memory ?_)
    intro m found
    have small := small m found
    rw [gather_eq small, access_liftM]
    cases gathered : WasiCall.gather m.toMemory iovs.toNat count.toNat nwritten.toNat with
    | error e => exact exact_lift s (Run.fail e)
    | ok vs =>
      obtain ⟨length, fit⟩ := WasiCall.gather_eq_ok gathered
      have value : (BitVec.ofNat 64 (Iovec.total vs)).toNat = Iovec.total vs := by
        have bound := Iovec.total_le vs
        rw [BitVec.toNat_ofNat, Nat.mod_eq_of_lt (by omega)]
      have larger : size m.toMemory < BitVec.ofNat 64 (Iovec.total vs) ↔
          m.size < Iovec.total vs := by
        rw [BitVec.lt_def, toNat_size small, value]
      apply Exact.ite larger (fun _ => exact_lift s (pure _))
      intro room
      apply (exact_deliver small stream fit s).then
      intro taken s'
      apply Exact.ite Iff.rfl _ (fun _ => exact_lift s' (pure _))
      intro _
      apply Exact.of_eq
      have short : narrow? 32 (BitVec.ofNat 64 (Iovec.total vs)) =
          some (BitVec.ofNat 32 (Iovec.total vs)) := by
        rw [narrow?_eq_some_iff, value, BitVec.toNat_ofNat, Nat.mod_eq_of_lt (by omega)]
      rw [short, Option.getM_some, pure_bind, writeU32_eq small]
      exact edit_return m (·.writeU32 nwritten.toNat (BitVec.ofNat 32 (Iovec.total vs))) _

theorem exact_copy (dest src length : BitVec 32) :
    Exact s (copy c dest src length) (Primitive.copy c dest src length) := by
  apply Exact.memory
  intro m found
  apply Exact.of_eq
  rw [copyWithin_eq (small m found)]
  exact edit_liftM m (·.copyWithin dest.toNat src.toNat length.toNat)

theorem exact_resize (requested : BitVec 32) :
    Exact s (resize c requested) (Primitive.resize c requested) := by
  apply Exact.silent Run.silent_host
  intro host
  apply Exact.ite Iff.rfl (fun _ => exact_lift s _)
  intro _
  apply Exact.memory
  intro m found
  have small := small m found
  have covered : widen requested ≤ size m.toMemory ↔ requested.toNat ≤ m.size := by
    rw [BitVec.le_def, toNat_widen, toNat_size small]
  apply Exact.ite covered (fun _ => exact_lift s (pure 1))
  intro larger
  obtain ⟨missing, delta, pages, subtracted, divided, added, previous, value, sum⟩ :=
    exists_pages small (Nat.lt_of_not_le larger)
  simp only [subtracted, divided, Option.getM_some, pure_bind, value]
  cases m.grow (Primitive.missingPages m requested.toNat) with
  | none => exact exact_lift s (do
      Run.log .warn _ _
      return 0)
  | some grown =>
    simp only [added, Option.getM_some, pure_bind, previous, sum]
    exact exact_lift s (do
      Run.setMemory grown
      Run.log .debug _ _
      return 1)

/-! The host functions by their names -/

theorem exact_runWasi (w : WasiCall) (args : List Val) :
    Exact s (runWasi c w args) (w.run c args) := by
  unfold runWasi
  split
  · exact (exact_writeOut small ..).answer
  · exact (exact_emptySizes small ..).answer
  · exact (exact_emptySizes small ..).answer
  · exact (exact_clockTime small ..).answer
  · exact (exact_random small ..).answer
  · exact exact_lift s _

theorem exact_runPrimitive (p : Primitive) (args : List Val) :
    Exact s (runPrimitive c p args) (p.run c args) := by
  unfold runPrimitive
  split
  · exact (exact_resize small ..).answer
  · exact (exact_copy small ..).then fun _ s' => exact_lift s' (pure [])
  · exact exact_lift s _

theorem exact_run (f : HostFunction) {args slots : List Val}
    (typed : args.map Val.type = f.type.params) (ready : slots.map Val.type = f.type.results) :
    Exact s (run c f args slots) (f.run c args) := by
  cases f with
  | primitive p => exact exact_runPrimitive small p args
  | trampoline t => exact exact_redirect t typed
  | syscall f => exact exact_runSyscall f ready
  | wasi w => exact exact_runWasi small w args

end

theorem type?_eq : ∀ t ∈ Trampoline.all, type? t = some t.type := by decide

end OnWords

namespace HostFunction

open WasiCall (Counted)

/-- A host function is entered with arguments and slots of the types it is registered with, by a
caller that exports no memory or one that 32-bit addresses go beyond. Then it does on words of 32 and
of 64 bits what it does on unbounded numbers: no sum, difference or product of its own fails to fit,
nothing is narrowed that is too large, and no range, index, slot or argument is missing. A write that
answers zero has stored how many bytes it put out. In any such memory bytes, words and tables are
accessed on words as on numbers, the length of a table does not wrap, and neither does the sum of
the lengths of its buffers, as far as it has been added up. A range that passes the check of bounds
does not end before it starts, nor beyond the size; and the type of a trampoline is the one that its
name spells. -/
theorem words_suffice (c : Context) (s : Store)
    (small : ∀ m, c.memoryIn s = some m → m.size < 2 ^ 32) :
    (∀ (f : HostFunction) (args slots : List Val), args.map Val.type = f.type.params →
      slots.map Val.type = f.type.results →
      (OnWords.run c f args slots).run.startAt s = (some <$> f.run c args).startAt s) ∧
    (∀ (fd iovs count nwritten : BitVec 32) (w : World) (t u : Trace) (s' : Store),
      (((HostFunction.wasi .fdWrite).run c
        [.i32 fd, .i32 iovs, .i32 count, .i32 nwritten]).startAt s).run w t =
          (.value (.ok [.i32 0], s'), u) → Counted fd nwritten s t s' u) ∧
    (∀ m : Memory, m.size < 2 ^ 32 →
      (∀ offset length, OnWords.read m offset length = liftM (m.read offset.toNat length.toNat)) ∧
      (∀ offset bytes, bytes.length < 2 ^ 64 →
        OnWords.write m offset bytes = liftM (m.write offset.toNat bytes)) ∧
      (∀ offset, OnWords.readU32 m offset = liftM (m.readU32 offset.toNat)) ∧
      ∀ iovs count : BitVec 32,
        OnWords.readAll m iovs count = liftM (Iovec.readAll m iovs.toNat count.toNat) ∧
        (Word.widen count * 8).toNat = 8 * count.toNat ∧
        ∀ vs, Iovec.readAll m iovs.toNat count.toNat = .ok vs → ∀ k,
          (OnWords.total (vs.take k)).toNat = Iovec.total (vs.take k)) ∧
    (∀ (offset length size : BitVec 64) (r : WordRange),
      OnWords.checkBounds offset length size = .ok r → r.start ≤ r.stop ∧ r.stop ≤ size) ∧
    ∀ t ∈ Trampoline.all, OnWords.type? t = some t.type := by
  refine ⟨fun f args slots typed ready => OnWords.exact_run small f typed ready, ?_, ?_,
    fun offset length size r => OnWords.checkBounds_range, OnWords.type?_eq⟩
  · intro fd iovs count nwritten w t u s' answered
    obtain ⟨r, s'', u', ended, counted⟩ :=
      WasiCall.run_write_counts small fd iovs count nwritten w t
    have run_eq : (HostFunction.wasi .fdWrite).run c
        [.i32 fd, .i32 iovs, .i32 count, .i32 nwritten] =
          WasiCall.answer (WasiCall.write c fd iovs count nwritten) := rfl
    rw [run_eq, WasiCall.answer, Run.startAt_bind, Action.run_bind, ended] at answered
    cases r with
    | error stop => cases answered
    | ok word =>
      cases answered
      exact counted rfl
  · intro m small
    refine ⟨OnWords.read_eq small, fun offset bytes => OnWords.write_eq small offset,
      OnWords.readU32_eq small, fun iovs count =>
        ⟨OnWords.readAll_eq small iovs count, Word.toNat_widen_mul_eight count, ?_⟩⟩
    intro vs read k
    have length := Iovec.length_of_readAll read
    have counted := count.isLt
    have part := List.length_take_le' k vs
    exact OnWords.toNat_total (by omega)

theorem words_suffice_table :
    let c : Context := ⟨true, true, fun _ => none⟩
    let args : List Val := [.i32 1, .i32 0, .i32 1, .i32 0]
    let left : Store := { WasiCall.tableStore with
      memory := some (WasiCall.tablePage.put (WasiCall.tablePage.store 0 [8, 0, 0, 0]))
      host := WasiCall.tableStore.host.capture .stdout [0, 0, 0, 0, 8, 0, 0, 0] }
    (∀ m, c.memoryIn WasiCall.tableStore = some m → m.size < 2 ^ 32) ∧
    (OnWords.run c (.wasi .fdWrite) args [.i32 0]).run.startAt WasiCall.tableStore =
      .done (.ok (some [.i32 0]), left) ∧
    Counted 1 0 WasiCall.tableStore [] left [] ∧
    Iovec.readAll WasiCall.tablePage.toMemory 0 1 = .ok [⟨0, 8⟩] ∧
    (OnWords.total [⟨0, 8⟩]).toNat = Iovec.total [⟨0, 8⟩] ∧
    OnWords.write WasiCall.tablePage.toMemory 0xffffffff [7] =
      liftM (WasiCall.tablePage.write 0xffffffff [7]) := by
  intro c args left
  have small : ∀ m, c.memoryIn WasiCall.tableStore = some m → m.size < 2 ^ 32 := by
    intro m found
    cases found
    rw [WasiCall.size_tablePage]
    decide
  have page : WasiCall.tablePage.size < 2 ^ 32 := small _ rfl
  have read : Iovec.readAll WasiCall.tablePage.toMemory 0 1 = .ok [⟨0, 8⟩] := rfl
  obtain ⟨same, counts, words, -⟩ := words_suffice c WasiCall.tableStore small
  exact ⟨small, same (.wasi .fdWrite) args [.i32 0] rfl rfl,
    counts 1 0 1 0 Surroundings.still.world [] [] left rfl, read,
    ((words _ page).2.2.2 0 1).2.2 _ read 1, (words _ page).2.1 0xffffffff [7] (by decide)⟩

end HostFunction

end GuestHost
