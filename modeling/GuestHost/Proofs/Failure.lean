import GuestHost.Memory.Lemmas
import GuestHost.Proofs.Arms
import GuestHost.Proofs.Endings

/-!
What a host function that fails leaves behind. Main statement: a failing call changes nothing,
unless it is one of the two size queries whose first cell is in bounds while the second is not.
-/

namespace GuestHost

open Wasm (Val)

namespace LinearMemory

theorem edit_write (m : LinearMemory) (offset : Nat) (bytes : List UInt8) :
    m.edit (·.write offset bytes) =
      if offset + bytes.length ≤ m.size then .ok (m.put (m.store offset bytes))
      else .error (.outOfBounds offset bytes.length m.size) := by
  split
  · rename_i fits
    simp [edit, Memory.write_of_le fits, Except.map]
  · rename_i beyond
    simp [edit, Memory.write_of_lt (Nat.lt_of_not_le beyond), Except.map]

theorem edit_writeU32 (m : LinearMemory) (offset : Nat) (word : BitVec 32) :
    m.edit (·.writeU32 offset word) =
      if offset + 4 ≤ m.size then .ok (m.put (m.store offset (Word.bytes word 4)))
      else .error (.outOfBounds offset 4 m.size) := by
  have h := m.edit_write offset (Word.bytes word 4)
  rwa [Word.length_bytes] at h

theorem put_toMemory (m : LinearMemory) {contents : Memory} (h : contents.size = m.size) :
    (m.put contents).toMemory = contents := by
  simp [put, h]

end LinearMemory

open Run

theorem atomic_edit (m : LinearMemory) (f : Memory → Except HostError Memory) {α : Type} (a : α)
    {bad : Except Stop α → Prop} (good : ¬ bad (.ok a)) :
    Atomic bad (do
      let m ← ofExcept (m.edit f)
      setMemory m
      return a) := by
  apply (silent_ofExcept _).bind_atomic
  intro edited
  apply atomic_of_never
  intro s
  simpa [startAt_map] using good

namespace Primitive

theorem resize_atomic (c : Context) (requested : BitVec 32) :
    Atomic StoppedByHost (resize c requested) := by
  apply silent_host.bind_atomic
  intro host
  split
  · exact (silent_fatal _).atomic
  apply (silent_memory c).bind_atomic
  intro m
  split
  · exact (silent_pure _).atomic
  -- From here on the engine decides, and both of its answers are results.
  dsimp only
  split
  · apply atomic_of_never
    intro s
    simp [startAt_bind, startAt_map, StoppedByHost]
  · exact ((silent_log _ _ _).bind fun _ => silent_pure _).atomic

theorem copy_atomic (c : Context) (dest src length : BitVec 32) :
    Atomic StoppedByHost (copy c dest src length) := by
  apply (silent_memory c).bind_atomic
  intro m
  exact atomic_edit m _ () (by simp [StoppedByHost])

theorem run_atomic (c : Context) (p : Primitive) (args : List Val) :
    Atomic StoppedByHost (p.run c args) := by
  obtain ⟨F, run_eq, arm⟩ := p.exists_arm args
  rw [run_eq]
  cases arm with
  | malformed => exact (silent_fault _).atomic
  | notify notice =>
    apply atomic_of_never
    intro s
    simp [notifyGrowth, startAt_bind, startAt_map, StoppedByHost]
  | setTemp value =>
    apply atomic_of_never
    intro s
    simp [startAt_map, StoppedByHost]
  | getTemp => exact (silent_host.bind fun _ => silent_pure _).atomic
  | resize requested =>
    exact (resize_atomic c requested).bind_pure _ (by simp [StoppedByHost])
      (by simp [StoppedByHost])
  | abort => exact (silent_fatal _).atomic
  | longjmp => exact (silent_fatal _).atomic
  | copy dest src length =>
    exact (copy_atomic c dest src length).bind_pure _ (by simp [StoppedByHost])
      (by simp [StoppedByHost])

end Primitive

theorem Syscall.run_silent (s : Syscall) : Silent s.run := by
  cases s
  case getpid => exact (silent_ask _).bind fun _ => silent_pure _
  all_goals exact silent_fatal _

namespace WasiCall

def Refused (r : Except Stop (BitVec 32)) : Prop :=
  StoppedByHost r ∨ ∃ errno, r = .ok errno ∧ errno ≠ 0

theorem not_refused_success : ¬ Refused (.ok Errno.success) := by
  simp [Refused, StoppedByHost, Errno.success]

/-- The counter's cell is among the ranges that a gathered write checks first. -/
theorem fits_of_gather {m : Memory} {iovs count nwritten : Nat} {vs : List Iovec}
    (h : gather m iovs count nwritten = .ok vs) : nwritten + 4 ≤ m.size := by
  by_cases fits : nwritten + 4 ≤ m.size
  · exact fits
  have bad := checkBounds_of_lt (Nat.lt_of_not_le fits)
  rw [gather] at h
  cases read : Iovec.readAll m iovs count with
  | error e => simp [read, bind, Except.bind] at h
  | ok vs => simp [read, bad, bind, Except.bind] at h

theorem sendAll_silent (stream : OutputStream) (chunks : List (List UInt8)) :
    Silent (sendAll stream chunks) := by
  induction chunks with
  | nil => exact silent_pure _
  | cons chunk chunks ih =>
    apply (silent_ask _).bind
    intro taken
    split
    · exact ih
    · exact silent_pure _

/-- Once the counter's cell is known to be in bounds, a write fails only by a refused chunk, and
then nothing was kept. -/
theorem deliver_atomic (stream : OutputStream) (chunks : List (List UInt8)) (m : LinearMemory)
    (offset : Nat) (word : BitVec 32) (fits : offset + 4 ≤ m.size) :
    Atomic Refused (do
      if ← deliver stream chunks then
        let m ← ofExcept (m.edit (·.writeU32 offset word))
        setMemory m
        return Errno.success
      else return Errno.io) := by
  intro s
  cases capture : s.host.config.captureOutput with
  | true =>
    simp [deliver, startAt_bind, startAt_map, capture, m.edit_writeU32, fits, not_refused_success]
  | false =>
    have sending : (deliver stream chunks).startAt s = (sendAll stream chunks).startAt s := by
      simp [deliver, startAt_bind, capture]
    refine always_startAt_bind ?_
    rw [sending]
    apply (sendAll_silent stream chunks s).mono
    intro p same
    rcases p with ⟨_ | _ | _, s'⟩
    all_goals cases same
    · exact fun _ => rfl
    · exact fun _ => rfl
    · exact atomic_edit m _ Errno.success not_refused_success s'

theorem write_atomic (c : Context) (fd iovs count nwritten : BitVec 32) :
    Atomic Refused (write c fd iovs count nwritten) := by
  unfold write
  split
  · exact (silent_pure _).atomic
  apply (silent_memory c).bind_atomic
  intro m
  cases gathered : gather m.toMemory iovs.toNat count.toNat nwritten.toNat with
  | error e => exact (silent_fail e).atomic
  | ok vs =>
    simp only [Run.ofExcept, pure_bind]
    split
    · exact (silent_pure _).atomic
    · exact deliver_atomic _ _ m _ _ (fits_of_gather gathered)

theorem readClock_silent (clock : Clock) : Silent (readClock clock) := by
  apply (silent_ask _).bind
  intro now
  cases clock with
  | realtime => exact silent_pure _
  | monotonic => exact silent_host.bind fun _ => silent_pure _

theorem clockTime_atomic (c : Context) (id pointer : BitVec 32) :
    Atomic Refused (clockTime c id pointer) := by
  unfold clockTime
  split
  · exact (silent_pure _).atomic
  rename_i clock _
  apply (readClock_silent clock).bind_atomic
  intro now
  apply (silent_memory c).bind_atomic
  intro m
  exact atomic_edit m _ _ not_refused_success

theorem random_atomic (c : Context) (buffer length : BitVec 32) :
    Atomic Refused (random c buffer length) := by
  apply (silent_memory c).bind_atomic
  intro m
  apply (silent_ofExcept _).bind_atomic
  intro _
  apply (silent_ask _).bind_atomic
  intro bytes
  exact atomic_edit m _ _ not_refused_success

end WasiCall

/-- The call failed, by an error of the host or by an error number of the system interface. -/
def HostFunction.Failed (f : HostFunction) (r : Except Stop (List Val)) : Prop :=
  StoppedByHost r ∨ ∃ w errno, f = wasi w ∧ r = .ok [.i32 errno] ∧ errno ≠ 0

/-- The two calls that store a count and a size, one after the other. -/
def HostFunction.IsSizeQuery (f : HostFunction) : Prop :=
  f = wasi .argsSizesGet ∨ f = wasi .environSizesGet

namespace WasiCall

theorem answer_atomic {x : Run (BitVec 32)} (hx : Atomic Refused x) (w : WasiCall) :
    Atomic (HostFunction.wasi w).Failed (answer x) := by
  refine hx.bind_pure _ (fun errno failed => ?_) (fun e failed => ?_)
  · simpa [HostFunction.Failed, Refused, StoppedByHost] using failed
  · simpa [HostFunction.Failed, Refused, StoppedByHost] using failed

theorem run_atomic (c : Context) (w : WasiCall) (args : List Val)
    (other : ¬ (HostFunction.wasi w).IsSizeQuery) :
    Atomic (HostFunction.wasi w).Failed (w.run c args) := by
  obtain ⟨F, run_eq, arm⟩ := w.exists_arm args
  rw [run_eq]
  cases arm with
  | malformed => exact (silent_fault _).atomic
  | write fd iovs count nwritten => exact answer_atomic (write_atomic c fd iovs count nwritten) _
  | exit code => exact (silent_fail _).atomic
  | sizes _ query count size =>
    refine absurd (query.imp ?_ ?_) other
    · exact congrArg HostFunction.wasi
    · exact congrArg HostFunction.wasi
  | nothing => exact (silent_pure _).atomic
  | clock id pointer => exact answer_atomic (clockTime_atomic c id pointer) _
  | random buffer length => exact answer_atomic (random_atomic c buffer length) _
  | unsupported => exact (silent_fatal _).atomic

end WasiCall

namespace HostFunction

/-- Of all host functions that call no other, only the size queries are not atomic. -/
theorem run_atomic (c : Context) (f : HostFunction) (args : List Val)
    (plain : ∀ t, f ≠ trampoline t) (other : ¬ f.IsSizeQuery) : Atomic f.Failed (f.run c args) := by
  cases f with
  | primitive p =>
    apply (p.run_atomic c args).imp
    intro r failed
    simpa [Failed] using failed
  | trampoline t => exact absurd rfl (plain t)
  | syscall s => exact (s.run_silent).atomic
  | wasi w => exact w.run_atomic c args other

end HostFunction

/-- No cell, size or limit tells the two memories apart. -/
structure LinearMemory.Alike (m m' : LinearMemory) : Prop where
  pages : m'.pages = m.pages
  limit : m'.limit = m.limit
  cell : ∀ i, m'.cell i = m.cell i

structure Store.Alike (s s' : Store) : Prop where
  memory : Option.Rel LinearMemory.Alike s.memory s'.memory
  table : s'.table = s.table
  globals : s'.globals = s.globals
  host : s'.host = s.host

theorem Store.Alike.refl (s : Store) : s.Alike s where
  memory := by
    cases s.memory with
    | none => exact .none
    | some m => exact .some ⟨rfl, rfl, fun _ => rfl⟩
  table := rfl
  globals := rfl
  host := rfl

/-- A size query gets no further than its first cell, which does not hold zero yet. -/
def StopsHalfway (c : Context) (f : HostFunction) (args : List Val) (s : Store) : Prop :=
  f.IsSizeQuery ∧ ∃ count size m, args = [.i32 count, .i32 size] ∧ c.memoryIn s = some m ∧
    count.toNat + 4 ≤ m.size ∧ m.size < size.toNat + 4 ∧ ∃ i < 4, m.cell (count.toNat + i) ≠ 0

theorem ContextIn.memory_of_memoryIn {c : Context} {s : Store} {m : LinearMemory}
    (found : c.memoryIn s = some m) : s.memory = some m := by
  unfold memoryIn at found
  split at found
  · exact found
  · cases found

namespace WasiCall

def stored (s : Store) (m : LinearMemory) (pointer word : BitVec 32) : Store :=
  { s with memory := some (m.put (m.store pointer.toNat (Word.bytes word 4))) }

theorem startAt_storeU32 (c : Context) (pointer word : BitVec 32) (s : Store) :
    (storeU32 c pointer word).startAt s = .done (match c.memoryIn s with
      | some m =>
        if pointer.toNat + 4 ≤ m.size then (.ok (), stored s m pointer word)
        else (.error (.host (.outOfBounds pointer.toNat 4 m.size)), s)
      | none => (.error (.host .noMemory), s)) := by
  cases found : c.memoryIn s with
  | none => simp [storeU32, startAt_bind, found]
  | some m =>
    by_cases fits : pointer.toNat + 4 ≤ m.size
    · simp [storeU32, startAt_bind, found, m.edit_writeU32, fits, stored]
    · simp [storeU32, startAt_bind, found, m.edit_writeU32, fits]

variable {c : Context} {s : Store} {m : LinearMemory}

theorem memoryIn_stored (found : c.memoryIn s = some m) (pointer word : BitVec 32) :
    c.memoryIn (stored s m pointer word) =
      some (m.put (m.store pointer.toNat (Word.bytes word 4))) := by
  unfold ContextIn.memoryIn at found ⊢
  split at found
  · rename_i exported
    rw [if_pos exported, stored]
  · cases found

theorem startAt_emptySizes (found : c.memoryIn s = some m) (count size : BitVec 32) :
    (emptySizes c count size).startAt s = .done (
      if count.toNat + 4 ≤ m.size then
        if size.toNat + 4 ≤ m.size then
          (.ok Errno.success,
            stored (stored s m count 0) (m.put (m.store count.toNat (Word.bytes (0 : BitVec 32) 4)))
              size 0)
        else (.error (.host (.outOfBounds size.toNat 4 m.size)), stored s m count 0)
      else (.error (.host (.outOfBounds count.toNat 4 m.size)), s)) := by
  rw [emptySizes, startAt_bind, startAt_storeU32, found, Action.done_bind]
  by_cases first : count.toNat + 4 ≤ m.size
  · have size_eq : (m.put (m.store count.toNat (Word.bytes (0 : BitVec 32) 4))).size = m.size := by
      rw [m.put_toMemory (by simp)]
      simp
    simp only [if_pos first, startAt_bind, startAt_storeU32, memoryIn_stored found,
      Action.done_bind, size_eq]
    by_cases second : size.toNat + 4 ≤ m.size
    · simp [second]
    · simp [second]
  · simp only [if_neg first]

theorem cell_stored_zero {count : Nat} (fits : count + 4 ≤ m.size) (i : Nat) :
    (m.put (m.store count (Word.bytes (0 : BitVec 32) 4))).cell i =
      if count ≤ i ∧ i < count + 4 then 0 else m.cell i := by
  have zeros : ∀ j, (Word.bytes (0 : BitVec 32) 4).getD j 0 = 0 := by
    have same : Word.bytes (0 : BitVec 32) 4 = List.replicate 4 0 := by decide
    intro j
    rw [same, List.getD_eq_getElem?_getD, List.getElem?_replicate]
    split <;> rfl
  rw [m.put_toMemory (by simp), Memory.cell_store (by simpa using fits), zeros,
    Word.length_bytes]

theorem alike_stored_zero_iff (found : c.memoryIn s = some m) {count : BitVec 32}
    (fits : count.toNat + 4 ≤ m.size) :
    s.Alike (stored s m count 0) ↔ ∀ i < 4, m.cell (count.toNat + i) = 0 := by
  have memory := ContextIn.memory_of_memoryIn found
  constructor
  · intro alike i below
    have same := alike.memory
    rw [memory] at same
    cases same with
    | some same =>
      have cell := same.cell (count.toNat + i)
      rw [cell_stored_zero fits, if_pos ⟨by omega, by omega⟩] at cell
      exact cell.symm
  · intro zeros
    refine ⟨?_, rfl, rfl, rfl⟩
    rw [memory]
    refine .some ⟨?_, ?_, fun i => ?_⟩
    · unfold LinearMemory.put
      split <;> rfl
    · unfold LinearMemory.put
      split <;> rfl
    · rw [cell_stored_zero fits]
      split
      · rename_i inside
        have cell := zeros (i - count.toNat) (by omega)
        rw [← cell]
        congr 1
        omega
      · rfl

end WasiCall

theorem HostFunction.run_sizeQuery {f : HostFunction} (query : f.IsSizeQuery) (c : Context)
    (args : List Val) :
    f.run c args = match args with
      | [.i32 count, .i32 size] => WasiCall.answer (WasiCall.emptySizes c count size)
      | _ => fault .malformed := by
  rcases query with rfl | rfl <;> rfl

theorem stopsHalfway_iff {c : Context} {f : HostFunction} {s : Store} {m : LinearMemory}
    (query : f.IsSizeQuery) (found : c.memoryIn s = some m) (count size : BitVec 32) :
    StopsHalfway c f [.i32 count, .i32 size] s ↔ count.toNat + 4 ≤ m.size ∧
      m.size < size.toNat + 4 ∧ ∃ i < 4, m.cell (count.toNat + i) ≠ 0 := by
  constructor
  · intro half
    obtain ⟨_, _, _, _, same, found', rest⟩ := half
    cases same
    cases found.symm.trans found'
    exact rest
  · intro rest
    exact ⟨query, count, size, m, rfl, found, rest⟩

inductive Remains (c : Context) (f : HostFunction) : List Val → Store → Store → Prop
  | nothing {args : List Val} {s : Store} (whole : ¬ StopsHalfway c f args s) : Remains c f args s s
  | firstWord {count size : BitVec 32} {s : Store} {m : LinearMemory}
      (found : c.memoryIn s = some m) (fits : count.toNat + 4 ≤ m.size)
      (beyond : m.size < size.toNat + 4) :
      Remains c f [.i32 count, .i32 size] s (WasiCall.stored s m count 0)

theorem sizeQuery_remains {f : HostFunction} (query : f.IsSizeQuery) (c : Context)
    (args : List Val) (s : Store) :
    ((f.run c args).startAt s).Always fun p => f.Failed p.1 → Remains c f args s p.2 := by
  rw [f.run_sizeQuery query]
  split
  · rename_i count size
    rw [WasiCall.answer, startAt_bind]
    cases found : c.memoryIn s with
    | none =>
      have whole : ¬ StopsHalfway c f [.i32 count, .i32 size] s := by
        intro half
        obtain ⟨_, _, _, _, _, found', _⟩ := half
        cases found.symm.trans found'
      simp only [WasiCall.emptySizes, startAt_bind, WasiCall.startAt_storeU32, found,
        Action.done_bind]
      intro _
      exact .nothing whole
    | some m =>
      rw [WasiCall.startAt_emptySizes found, Action.done_bind]
      by_cases first : count.toNat + 4 ≤ m.size
      · by_cases second : size.toNat + 4 ≤ m.size
        · simp only [if_pos first, if_pos second, startAt_pure, Action.always_done]
          intro failed
          simp [HostFunction.Failed, StoppedByHost, WasiCall.Errno.success] at failed
        · simp only [if_pos first, if_neg second]
          intro _
          exact .firstWord found first (Nat.lt_of_not_le second)
      · simp only [if_neg first]
        intro _
        refine .nothing fun half => ?_
        exact first ((stopsHalfway_iff query found count size).mp half).1
  · rw [startAt_fault, Action.always_done]
    intro failed
    simp [HostFunction.Failed, StoppedByHost] at failed

/-- A call that fails leaves a trace exactly when it is a size query that stops halfway, and even
then no trace on the state of the host. -/
theorem failed_call_alike_iff (c : Context) (f : HostFunction) (args : List Val) (s s' : Store)
    (w : World) (t u : Trace) (r : Except Stop (List Val)) (plain : ∀ t, f ≠ .trampoline t)
    (ends : ((f.run c args).startAt s).run w t = (.value (r, s'), u)) (failed : f.Failed r) :
    s'.host = s.host ∧ (s.Alike s' ↔ ¬ StopsHalfway c f args s) := by
  by_cases query : f.IsSizeQuery
  · have remains : Remains c f args s s' := (sizeQuery_remains query c args s).of_run ends failed
    cases remains with
    | nothing whole => exact ⟨rfl, fun _ => whole, fun _ => .refl s⟩
    | firstWord found fits beyond =>
      refine ⟨rfl, ?_⟩
      rw [WasiCall.alike_stored_zero_iff found fits, stopsHalfway_iff query found]
      constructor
      · intro zeros half
        obtain ⟨_, _, i, below, nonzero⟩ := half
        exact nonzero (zeros i below)
      · intro whole i below
        apply Decidable.byContradiction
        intro nonzero
        exact whole ⟨fits, beyond, i, below, nonzero⟩
  · have same : s' = s := ((f.run_atomic c args plain query) s).of_run ends failed
    subst same
    exact ⟨rfl, fun _ half => query half.1, fun _ => .refl s'⟩

def onesPage : LinearMemory :=
  (LinearMemory.new 1 none).put ((Memory.zeros pageSize).store 0 [255, 255, 255, 255])

def onesStore : Store where
  memory := some onesPage
  host := { config := .trapping, origin := 0 }

theorem size_onesPage : onesPage.size = 65536 := by
  rw [onesPage, LinearMemory.put_toMemory _ (by simp [Memory.zeros, LinearMemory.new])]
  simp [Memory.zeros, pageSize]

theorem startAt_query_ones : ((HostFunction.wasi .argsSizesGet).run ⟨true, true, fun _ => none⟩
    [.i32 0, .i32 65533]).startAt onesStore =
      .done (.error (.host (.outOfBounds 65533 4 65536)), WasiCall.stored onesStore onesPage 0 0) := by
  have found : (⟨true, true, fun _ => none⟩ : Context).memoryIn onesStore = some onesPage := rfl
  rw [HostFunction.run_sizeQuery (.inl rfl)]
  simp [WasiCall.answer, startAt_map, WasiCall.startAt_emptySizes found, size_onesPage]

theorem failed_call_alike_iff_ones : (WasiCall.stored onesStore onesPage 0 0).host = onesStore.host ∧
    (onesStore.Alike (WasiCall.stored onesStore onesPage 0 0) ↔
      ¬ StopsHalfway ⟨true, true, fun _ => none⟩ (.wasi .argsSizesGet) [.i32 0, .i32 65533]
        onesStore) :=
  failed_call_alike_iff ⟨true, true, fun _ => none⟩ (.wasi .argsSizesGet) [.i32 0, .i32 65533]
    onesStore _ Surroundings.still.world [] [] _ nofun (by rw [startAt_query_ones]; rfl)
    (.inl ⟨_, rfl⟩)

/-- The query fails with an error of the host and has zeroed its first cell. -/
theorem failed_query_leaves_trace : onesStore.host.config.fatal = .trap ∧
    ∃ s, ((HostFunction.wasi .argsSizesGet).run ⟨true, true, fun _ => none⟩
        [.i32 0, .i32 65533]).startAt onesStore =
          .done (.error (.host (.outOfBounds 65533 4 65536)), s) ∧
      ¬ onesStore.Alike s := by
  refine ⟨rfl, _, startAt_query_ones, fun alike => ?_⟩
  have found : (⟨true, true, fun _ => none⟩ : Context).memoryIn onesStore = some onesPage := rfl
  have fits : (0 : BitVec 32).toNat + 4 ≤ onesPage.size := by simp [size_onesPage]
  have zeros := (WasiCall.alike_stored_zero_iff found fits).1 alike 0 (by decide)
  revert zeros
  decide

end GuestHost
