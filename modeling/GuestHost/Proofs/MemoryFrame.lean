import GuestHost.Proofs.Failure

/-!
Which cells of a guest's memory a call to the host may change. Main statement: they lie in the
ranges that the call's own arguments name, every such range lies in the memory as a whole, and the
memory changes its size by nothing but a granted growth of the heap.
-/

namespace GuestHost

open Wasm (Val)

namespace Memory

/-- `m'` is `m` with the `length` cells from `offset` overwritten, all of which are there. -/
def Overwrites (m : Memory) (offset length : Nat) (m' : Memory) : Prop :=
  ∃ bytes : List UInt8, bytes.length = length ∧ offset + length ≤ m.size ∧
    m' = m.store offset bytes

variable {m m' : Memory} {offset : Nat}

theorem write_overwrites {bytes : List UInt8} (h : m.write offset bytes = .ok m') :
    m.Overwrites offset bytes.length m' := by
  by_cases fits : offset + bytes.length ≤ m.size
  · rw [write_of_le fits] at h
    cases h
    exact ⟨bytes, rfl, fits, rfl⟩
  · rw [write_of_lt (Nat.lt_of_not_le fits)] at h
    cases h

theorem writeU32_overwrites {word : BitVec 32} (h : m.writeU32 offset word = .ok m') :
    m.Overwrites offset 4 m' := by
  have written := write_overwrites h
  rwa [Word.length_bytes] at written

theorem writeU64_overwrites {word : BitVec 64} (h : m.writeU64 offset word = .ok m') :
    m.Overwrites offset 8 m' := by
  have written := write_overwrites h
  rwa [Word.length_bytes] at written

theorem copyWithin_overwrites {src length : Nat} (h : m.copyWithin offset src length = .ok m') :
    m.Overwrites offset length m' := by
  rw [copyWithin_eq] at h
  split at h
  · rename_i room
    split at h
    · cases h
      exact ⟨m.slice src length, length_slice, room, rfl⟩
    · cases h
  · cases h

end Memory

abbrev Ranges := Nat → Nat → Prop

namespace LinearMemory

/-- Cells differ only in ranges that are owned and lie in the memory as a whole. -/
def Confined (owned : Ranges) (m m' : LinearMemory) : Prop :=
  ∀ i, m'.cell i ≠ m.cell i →
    ∃ offset length, owned offset length ∧ offset ≤ i ∧ i < offset + length ∧
      offset + length ≤ m.size

structure Kept (owned : Ranges) (m m' : LinearMemory) : Prop where
  cells : m.Confined owned m'
  size : m'.size = m.size

variable {owned : Ranges} {m m' m'' : LinearMemory}

theorem Kept.refl (owned : Ranges) (m : LinearMemory) : m.Kept owned m where
  cells _ differs := absurd rfl differs
  size := rfl

theorem Kept.trans (first : m.Kept owned m') (second : m'.Kept owned m'') :
    m.Kept owned m'' := by
  refine ⟨fun i differs => ?_, second.size.trans first.size⟩
  by_cases later : m''.cell i = m'.cell i
  · apply first.cells
    rwa [← later]
  · have range := second.cells i later
    rwa [first.size] at range

theorem Kept.mono {owned' : Ranges} (kept : m.Kept owned m')
    (more : ∀ offset length, owned offset length → owned' offset length) : m.Kept owned' m' := by
  refine ⟨fun i differs => ?_, kept.size⟩
  obtain ⟨offset, length, isOwned, place⟩ := kept.cells i differs
  exact ⟨offset, length, more _ _ isOwned, place⟩

theorem kept_put {offset length : Nat} {contents : Memory}
    (overwrites : m.Overwrites offset length contents) (isOwned : owned offset length) :
    m.Kept owned (m.put contents) := by
  obtain ⟨bytes, rfl, fits, rfl⟩ := overwrites
  have same : (m.put (m.store offset bytes)).toMemory = m.store offset bytes :=
    m.put_toMemory (Memory.size_store ..)
  constructor
  · intro i differs
    rw [same, Memory.cell_store fits] at differs
    split at differs
    · rename_i inside
      exact ⟨offset, bytes.length, isOwned, inside.1, inside.2, fits⟩
    · exact absurd rfl differs
  · rw [same, Memory.size_store]

theorem cell_of_grow {delta : Nat} (h : m.grow delta = some m') (i : Nat) :
    m'.cell i = m.cell i := by
  unfold grow at h
  split at h
  · cases h
    rfl
  · cases h

theorem size_of_grow {delta : Nat} (h : m.grow delta = some m') :
    m'.size = m.size + delta * pageSize := by
  unfold grow at h
  split at h
  · cases h
    rfl
  · cases h

end LinearMemory

namespace Run

variable {α β : Type}

def KeepsMemory (x : Run α) : Prop := ∀ s, (x.startAt s).Always fun p => p.2.memory = s.memory

theorem Silent.keepsMemory {x : Run α} (hx : Silent x) : KeepsMemory x :=
  fun s => (hx s).mono fun _ same => congrArg (·.memory) same

theorem keepsMemory_modifyHost (f : HostState → HostState) : KeepsMemory (modifyHost f) :=
  fun _ => rfl

theorem KeepsMemory.bind {x : Run α} {f : α → Run β} (hx : KeepsMemory x)
    (hf : ∀ a, KeepsMemory (f a)) : KeepsMemory (x >>= f) := by
  intro s
  apply always_startAt_bind
  apply (hx s).mono
  intro p same
  rcases p with ⟨stop | a, s'⟩
  · exact same
  · apply (hf a s').mono
    intro p' same'
    exact same'.trans same

/-- From the memory `start` a run changes nothing but what `owned` tells for the way it ends. -/
def Confines (start : Option LinearMemory) (owned : Except Stop α → Ranges) (x : Run α) : Prop :=
  ∀ s, s.memory = start → (x.startAt s).Always fun p =>
    Option.Rel (LinearMemory.Kept (owned p.1)) start p.2.memory

variable {start : Option LinearMemory} {owned : Except Stop α → Ranges}

theorem rel_kept_refl (owned : Ranges) (start : Option LinearMemory) :
    Option.Rel (LinearMemory.Kept owned) start start := by
  cases start with
  | none => exact .none
  | some m => exact .some (.refl owned m)

theorem rel_kept_mono {owned owned' : Ranges} {end' : Option LinearMemory}
    (kept : Option.Rel (LinearMemory.Kept owned) start end')
    (more : ∀ offset length, owned offset length → owned' offset length) :
    Option.Rel (LinearMemory.Kept owned') start end' := by
  cases kept with
  | none => exact .none
  | some kept => exact .some (kept.mono more)

theorem KeepsMemory.confines {x : Run α} (hx : KeepsMemory x) : Confines start owned x := by
  rintro s rfl
  apply (hx s).mono
  intro p same
  rw [same]
  exact rel_kept_refl _ _

theorem KeepsMemory.bind_confines {x : Run β} {f : β → Run α} (hx : KeepsMemory x)
    (hf : ∀ b, Confines start owned (f b)) : Confines start owned (x >>= f) := by
  rintro s rfl
  apply always_startAt_bind
  apply (hx s).mono
  intro p same
  rcases p with ⟨stop | b, s'⟩
  · dsimp only at same ⊢
    rw [same]
    exact rel_kept_refl _ _
  · exact hf b s' same

/-- A function that has got hold of the memory runs from it. -/
theorem confines_memory {c : Context} {f : LinearMemory → Run α}
    (hf : ∀ m, Confines (some m) owned (f m)) : Confines start owned (c.memory >>= f) := by
  rintro s rfl
  rw [startAt_bind, ContextIn.startAt_memory, Action.done_bind]
  cases found : c.memoryIn s with
  | none => exact rel_kept_refl _ _
  | some m =>
    have memory := ContextIn.memory_of_memoryIn found
    rw [memory]
    exact hf m s memory

theorem confines_edit (m : LinearMemory) {edit : Memory → Except HostError Memory}
    {offset length : Nat} {a : α}
    (overwrites : ∀ m', edit m.toMemory = .ok m' → m.Overwrites offset length m')
    (isOwned : owned (.ok a) offset length) :
    Confines (some m) owned (do
      let m ← ofExcept (m.edit edit)
      setMemory m
      return a) := by
  intro s memory
  cases edited : edit m.toMemory with
  | error e =>
    have failed : m.edit edit = .error e := by simp [LinearMemory.edit, edited, Except.map]
    rw [failed, startAt_bind, startAt_ofExcept_error, Action.done_bind, Action.always_done, memory]
    exact rel_kept_refl _ _
  | ok contents =>
    have done : m.edit edit = .ok (m.put contents) := by
      simp [LinearMemory.edit, edited, Except.map]
    rw [done, startAt_bind, startAt_ofExcept_ok, Action.done_bind]
    exact .some (LinearMemory.kept_put (overwrites contents edited) isOwned)

/-- Ranges that are owned however a run ends are owned by several runs in a row. -/
theorem Confines.seq {ranges : Ranges} {x : Run β} {f : β → Run α}
    (hx : ∀ start, Confines start (fun _ => ranges) x)
    (hf : ∀ b start, Confines start (fun _ => ranges) (f b)) :
    Confines start (fun _ => ranges) (x >>= f) := by
  rintro s rfl
  apply always_startAt_bind
  apply (hx s.memory s rfl).mono
  intro p first
  rcases p with ⟨stop | b, s'⟩
  · exact first
  · apply (hf b s'.memory s' rfl).mono
    intro p' second
    dsimp only at first second ⊢
    generalize s.memory = m, s'.memory = m', p'.2.memory = m'' at first second ⊢
    cases first with
    | none => exact second
    | some first =>
      cases second with
      | some second => exact .some (first.trans second)

theorem Confines.bind_pure {x : Run β} {owned' : Except Stop β → Ranges}
    (hx : Confines start owned' x) (g : β → α)
    (ok : ∀ b offset length, owned' (.ok b) offset length → owned (.ok (g b)) offset length)
    (error : ∀ e offset length, owned' (.error e) offset length →
      owned (.error e) offset length) :
    Confines start owned (x >>= fun b => pure (g b)) := by
  intro s memory
  apply always_startAt_bind
  apply (hx s memory).mono
  intro p kept
  rcases p with ⟨stop | b, s'⟩
  · exact rel_kept_mono kept (error stop)
  · exact rel_kept_mono kept (ok b)

end Run

open Run

/-- The ranges of cells that belong to a call which ends so. Pointers and lengths are read without
sign. -/
inductive HostFunction.Owns : HostFunction → List Val → Except Stop (List Val) → Ranges
  | written (fd iovs count nwritten : BitVec 32) :
    Owns (wasi .fdWrite) [.i32 fd, .i32 iovs, .i32 count, .i32 nwritten] (.ok [.i32 0])
      nwritten.toNat 4
  | count (w : WasiCall) (query : (wasi w).IsSizeQuery) (count size : BitVec 32)
      (r : Except Stop (List Val)) :
    Owns (wasi w) [.i32 count, .i32 size] r count.toNat 4
  | size (w : WasiCall) (query : (wasi w).IsSizeQuery) (count size : BitVec 32)
      (r : Except Stop (List Val)) :
    Owns (wasi w) [.i32 count, .i32 size] r size.toNat 4
  | time (id pointer : BitVec 32) (precision : BitVec 64) :
    Owns (wasi .clockTimeGet) [.i32 id, .i64 precision, .i32 pointer] (.ok [.i32 0])
      pointer.toNat 8
  | random (buffer length : BitVec 32) (r : Except Stop (List Val)) :
    Owns (wasi .randomGet) [.i32 buffer, .i32 length] r buffer.toNat length.toNat
  | copied (dest src length : BitVec 32) (r : Except Stop (List Val)) :
    Owns (primitive .memcpyBig) [.i32 dest, .i32 src, .i32 length] r dest.toNat length.toNat

namespace Primitive

theorem copy_confines (c : Context) (dest src length : BitVec 32) {start : Option LinearMemory}
    {owned : Except Stop Unit → Ranges} (isOwned : owned (.ok ()) dest.toNat length.toNat) :
    Confines start owned (copy c dest src length) := by
  apply confines_memory
  intro m
  exact confines_edit m (fun _ => Memory.copyWithin_overwrites) isOwned

theorem run_confines (c : Context) (p : Primitive) (args : List Val) (other : p ≠ .resizeHeap)
    {start : Option LinearMemory} :
    Confines start ((HostFunction.primitive p).Owns args) (p.run c args) := by
  obtain ⟨F, run_eq, arm⟩ := p.exists_arm args
  rw [run_eq]
  cases arm with
  | malformed => exact (silent_fault _).keepsMemory.confines
  | notify notice =>
    have told : KeepsMemory (notifyGrowth notice) :=
      (silent_log _ _ _).keepsMemory.bind fun _ => keepsMemory_modifyHost _
    exact told.bind_confines fun _ => (silent_pure _).keepsMemory.confines
  | setTemp value =>
    exact (keepsMemory_modifyHost _).bind_confines fun _ => (silent_pure _).keepsMemory.confines
  | getTemp => exact (silent_host.bind fun _ => silent_pure _).keepsMemory.confines
  | resize => exact absurd rfl other
  | abort => exact (silent_fatal _).keepsMemory.confines
  | longjmp => exact (silent_fatal _).keepsMemory.confines
  | copy dest src length =>
    have copied : Confines start (fun _ offset n => offset = dest.toNat ∧ n = length.toNat)
        (copy c dest src length) := copy_confines c dest src length ⟨rfl, rfl⟩
    refine copied.bind_pure _ ?_ ?_
    · rintro _ _ _ ⟨rfl, rfl⟩
      exact .copied ..
    · rintro _ _ _ ⟨rfl, rfl⟩
      exact .copied ..

end Primitive

namespace WasiCall

theorem deliver_keepsMemory (stream : OutputStream) (chunks : List (List UInt8)) :
    KeepsMemory (deliver stream chunks) := by
  apply silent_host.keepsMemory.bind
  intro host
  split
  · exact (keepsMemory_modifyHost _).bind fun _ => (silent_pure _).keepsMemory
  · exact (sendAll_silent stream chunks).keepsMemory

def OnSuccess (offset length : Nat) (r : Except Stop (BitVec 32)) : Ranges :=
  fun offset' length' => r = .ok Errno.success ∧ offset' = offset ∧ length' = length

variable {start : Option LinearMemory}

theorem write_confines (c : Context) (fd iovs count nwritten : BitVec 32) :
    Confines start (OnSuccess nwritten.toNat 4) (write c fd iovs count nwritten) := by
  unfold write
  split
  · exact (silent_pure _).keepsMemory.confines
  apply confines_memory
  intro m
  apply (silent_ofExcept _).keepsMemory.bind_confines
  intro vs
  dsimp only
  split
  · exact (silent_pure _).keepsMemory.confines
  apply (deliver_keepsMemory _ _).bind_confines
  intro sent
  split
  · exact confines_edit m (fun _ => Memory.writeU32_overwrites) ⟨rfl, rfl, rfl⟩
  · exact (silent_pure _).keepsMemory.confines

theorem clockTime_confines (c : Context) (id pointer : BitVec 32) :
    Confines start (OnSuccess pointer.toNat 8) (clockTime c id pointer) := by
  unfold clockTime
  split
  · exact (silent_pure _).keepsMemory.confines
  rename_i clock _
  apply (readClock_silent clock).keepsMemory.bind_confines
  intro now
  apply confines_memory
  intro m
  exact confines_edit m (fun _ => Memory.writeU64_overwrites) ⟨rfl, rfl, rfl⟩

theorem random_confines (c : Context) (buffer length : BitVec 32) :
    Confines start (OnSuccess buffer.toNat length.toNat) (random c buffer length) := by
  apply confines_memory
  intro m
  apply (silent_ofExcept _).keepsMemory.bind_confines
  intro _
  apply (silent_ask _).keepsMemory.bind_confines
  intro bytes
  refine confines_edit m (fun _ written => ?_) ⟨rfl, rfl, rfl⟩
  have overwritten := Memory.write_overwrites written
  rwa [Vector.length_toList] at overwritten

theorem storeU32_confines (c : Context) (pointer word : BitVec 32) {ranges : Ranges}
    (isOwned : ranges pointer.toNat 4) :
    Confines start (fun _ => ranges) (storeU32 c pointer word) := by
  apply confines_memory
  intro m
  exact confines_edit m (fun _ => Memory.writeU32_overwrites) isOwned

theorem emptySizes_confines (c : Context) (count size : BitVec 32) :
    Confines start (fun _ offset length => (offset = count.toNat ∨ offset = size.toNat) ∧ length = 4)
      (emptySizes c count size) := by
  refine Confines.seq (fun _ => storeU32_confines c count 0 ⟨.inl rfl, rfl⟩) fun _ _ => ?_
  refine Confines.seq (fun _ => storeU32_confines c size 0 ⟨.inr rfl, rfl⟩) fun _ _ => ?_
  exact (silent_pure _).keepsMemory.confines

/-- A call that answers zero over one range owns that range if it is its own. -/
theorem answer_confines {x : Run (BitVec 32)} {offset length : Nat} (w : WasiCall)
    {args : List Val} (hx : Confines start (OnSuccess offset length) x)
    (isOwned : (HostFunction.wasi w).Owns args (.ok [.i32 0]) offset length) :
    Confines start ((HostFunction.wasi w).Owns args) (answer x) := by
  refine hx.bind_pure _ ?_ ?_
  · rintro word _ _ ⟨success, rfl, rfl⟩
    cases success
    exact isOwned
  · rintro _ _ _ ⟨success, _⟩
    cases success

theorem run_confines (c : Context) (w : WasiCall) (args : List Val) :
    Confines start ((HostFunction.wasi w).Owns args) (w.run c args) := by
  obtain ⟨F, run_eq, arm⟩ := w.exists_arm args
  rw [run_eq]
  cases arm with
  | malformed => exact (silent_fault _).keepsMemory.confines
  | write fd iovs count nwritten =>
    exact answer_confines _ (write_confines c fd iovs count nwritten) (.written ..)
  | exit => exact (silent_fail _).keepsMemory.confines
  | sizes _ query count size =>
    have isQuery : (HostFunction.wasi w).IsSizeQuery := by
      rcases query with rfl | rfl
      · exact .inl rfl
      · exact .inr rfl
    have owns : ∀ (r : Except Stop (List Val)) (offset length : Nat),
        (offset = count.toNat ∨ offset = size.toNat) ∧ length = 4 →
          (HostFunction.wasi w).Owns [.i32 count, .i32 size] r offset length := by
      rintro r _ _ ⟨rfl | rfl, rfl⟩
      · exact .count w isQuery ..
      · exact .size w isQuery ..
    exact (emptySizes_confines c count size).bind_pure _ (fun _ => owns _) (fun _ => owns _)
  | nothing => exact (silent_pure _).keepsMemory.confines
  | clock id pointer precision =>
    exact answer_confines _ (clockTime_confines c id pointer) (.time ..)
  | random buffer length =>
    exact answer_confines _ (random_confines c buffer length) (.random ..)
  | unsupported => exact (silent_fatal _).keepsMemory.confines

end WasiCall

namespace HostFunction

/-- What a call may have done to the memory, by how it was called and how it ended. -/
structure Frames (f : HostFunction) (args : List Val) (h : HostState)
    (r : Except Stop (List Val)) (m m' : LinearMemory) : Prop where
  cells : m.Confined (f.Owns args r) m'
  size_le : m.size ≤ m'.size
  resized : m'.size ≠ m.size → f = primitive .resizeHeap ∧ h.config.heapGrowth = true

variable {f : HostFunction} {args : List Val} {h : HostState} {r : Except Stop (List Val)}
  {m m' : LinearMemory}

theorem Frames.of_kept (kept : m.Kept (f.Owns args r) m') : f.Frames args h r m m' where
  cells := kept.cells
  size_le := Nat.le_of_eq kept.size.symm
  resized changed := absurd kept.size changed

theorem rel_frames_refl (f : HostFunction) (args : List Val) (h : HostState)
    (r : Except Stop (List Val)) (start : Option LinearMemory) :
    Option.Rel (f.Frames args h r) start start := by
  cases start with
  | none => exact .none
  | some m => exact .some (.of_kept (.refl _ m))

theorem frames_grow {delta : Nat} (grown : m.grow delta = some m')
    (growth : h.config.heapGrowth = true) :
    (primitive .resizeHeap).Frames args h r m m' where
  cells i differs := absurd (LinearMemory.cell_of_grow grown i) differs
  size_le := by
    rw [LinearMemory.size_of_grow grown]
    omega
  resized _ := ⟨rfl, growth⟩

theorem run_confines (c : Context) (f : HostFunction) (args : List Val)
    (plain : ∀ t, f ≠ trampoline t) (other : f ≠ primitive .resizeHeap)
    {start : Option LinearMemory} : Confines start (f.Owns args) (f.run c args) := by
  cases f with
  | primitive p => exact p.run_confines c args fun same => other (congrArg primitive same)
  | trampoline t => exact absurd rfl (plain t)
  | syscall s => exact s.run_silent.keepsMemory.confines
  | wasi w => exact w.run_confines c args

/-- Growing the heap owns no cell: it adds pages of zeros, or leaves the memory as it is. -/
theorem resize_frames (c : Context) (requested : BitVec 32) (args : List Val) (s : Store) :
    ((Primitive.resize c requested).startAt s).Always fun p => ∀ r,
      Option.Rel ((primitive .resizeHeap).Frames args s.host r) s.memory p.2.memory := by
  -- On all ways but the last the memory is as it was.
  have kept (r : Except Stop (List Val)) :
      Option.Rel ((primitive .resizeHeap).Frames args s.host r) s.memory s.memory :=
    rel_frames_refl _ _ _ r s.memory
  unfold Primitive.resize
  apply always_startAt_bind
  rw [startAt_host, Action.always_done]
  dsimp only
  split
  · apply (silent_fatal _ s).mono
    intro p same r
    rw [same]
    exact kept r
  · rename_i growth
    apply always_startAt_bind
    rw [ContextIn.startAt_memory, Action.always_done]
    cases found : c.memoryIn s with
    | none => exact kept
    | some m =>
      dsimp only
      split
      · exact kept
      · cases grown : m.grow (Primitive.missingPages m requested.toNat) with
        | none =>
          apply always_startAt_bind
          rw [startAt_log]
          exact fun _ => kept
        | some m' =>
          apply always_startAt_bind
          rw [startAt_setMemory, Action.always_done]
          apply always_startAt_bind
          rw [startAt_log]
          intro _ r
          rw [ContextIn.memory_of_memoryIn found]
          exact .some (frames_grow grown (by simpa using growth))

theorem run_resizeHeap_frames (c : Context) (args : List Val) (s : Store) :
    (((primitive .resizeHeap).run c args).startAt s).Always fun p =>
      Option.Rel ((primitive .resizeHeap).Frames args s.host p.1) s.memory p.2.memory := by
  change ((Primitive.run c .resizeHeap args).startAt s).Always _
  unfold Primitive.run
  dsimp only
  split
  · apply always_startAt_bind
    apply (resize_frames c _ _ s).mono
    intro p framed
    rcases p with ⟨stop | word, s'⟩
    · exact framed _
    · exact framed _
  · rw [startAt_fault, Action.always_done]
    exact rel_frames_refl ..

/-- Called by any guest with any arguments, from any store and however it ends, a host function that
is no trampoline changes cells in its own ranges alone. The memory never shrinks, and grows in a
granted growth of the heap alone. -/
theorem run_frames (c : Context) (f : HostFunction) (args : List Val) (s s' : Store) (w : World)
    (t u : Trace) (r : Except Stop (List Val)) (plain : ∀ t, f ≠ trampoline t)
    (ends : ((f.run c args).startAt s).run w t = (.value (r, s'), u)) :
    Option.Rel (f.Frames args s.host r) s.memory s'.memory := by
  by_cases heap : f = primitive .resizeHeap
  · subst heap
    exact (run_resizeHeap_frames c args s).of_run ends
  · have kept := (f.run_confines c args plain heap s rfl).of_run ends
    dsimp only at kept
    generalize s.memory = start, s'.memory = left at kept ⊢
    cases kept with
    | none => exact .none
    | some kept => exact .some (.of_kept kept)

def copiedStore : Store :=
  { onesStore with memory := some (onesPage.put (onesPage.store 8 [255, 255])) }

theorem run_frames_copying :
    Option.Rel ((primitive .memcpyBig).Frames [.i32 8, .i32 0, .i32 2] onesStore.host (.ok []))
      onesStore.memory copiedStore.memory :=
  run_frames ⟨true, true, fun _ => none⟩ (primitive .memcpyBig) [.i32 8, .i32 0, .i32 2] onesStore
    copiedStore Surroundings.still.world [] [] (.ok []) nofun rfl

end HostFunction

end GuestHost
