import GuestHost.Proofs.Congruence
import GuestHost.Proofs.Failure
import GuestHost.Proofs.HistoryInvariant

/-!
The host state as the history of calls. Main statement: at every time of a guest's life the host state
is what the calls served so far make it, and whoever asks for the kept word is told the last one.
-/

namespace GuestHost

open Wasm (Val Module)

/-! What calls tell of the host state -/

def Memory.wordAt (m : Memory) (i : Nat) : BitVec 32 := Word.ofBytes 32 (m.slice i 4)

/-- All bytes that `count` buffers hold, where each takes eight cells from `iovs` on: where it begins
and how long it is. -/
def Memory.gathered (m : Memory) (iovs count : Nat) : List UInt8 :=
  (List.range count).flatMap fun j =>
    m.slice (m.wordAt (iovs + 8 * j)).toNat (m.wordAt (iovs + 8 * j + 4)).toNat

def OutputStream.descriptor : OutputStream → BitVec 32
  | stdout => 1
  | stderr => 2

namespace Event

def word? : List Val → Option (BitVec 32)
  | [.i32 w] => some w
  | _ => none

def staged? : Event → Option (BitVec 32)
  | served (.primitive .setTempRet0) args _ _ => word? args
  | _ => none

def notice? : Event → Option (BitVec 32)
  | served (.primitive .notifyMemoryGrowth) args _ _ => word? args
  | _ => none

def written (stream : OutputStream) : Event → List UInt8
  | served (.wasi .fdWrite) [.i32 fd, .i32 iovs, .i32 count, .i32 _] before (.ok [.i32 0]) =>
    match before.memory with
    | some m => if fd = stream.descriptor then m.gathered iovs.toNat count.toNat else []
    | none => []
  | _ => []

end Event

/-- What the host state becomes by one call. -/
structure HostState.Follows (h : HostState) (e : Event) (h' : HostState) : Prop where
  config : h'.config = h.config
  staging : h'.staging.value = e.staged?.getD h.staging.value
  notices : h'.notices = h.notices ++ e.notice?.toList
  captured (stream : OutputStream) : h'.captured stream =
    h.captured stream ++ if h.config.captureOutput then e.written stream else []

theorem HostState.Follows.same {h h' : HostState} {e : Event} (same : h' = h)
    (unstaged : e.staged? = none) (unnoticed : e.notice? = none)
    (unwritten : h.config.captureOutput = true → ∀ stream, e.written stream = []) :
    h.Follows e h' := by
  subst same
  constructor
  · rfl
  · rw [unstaged]
    rfl
  · rw [unnoticed]
    exact (List.append_nil _).symm
  · intro stream
    split
    · rename_i keeps
      rw [unwritten keeps, List.append_nil]
    · exact (List.append_nil _).symm

theorem HostState.Follows.capture {h : HostState} {e : Event} (unstaged : e.staged? = none)
    (unnoticed : e.notice? = none) (keeps : h.config.captureOutput = true) (stream : OutputStream)
    (bytes : List UInt8)
    (written : ∀ other, e.written other = if other = stream then bytes else []) :
    h.Follows e (h.capture stream bytes) := by
  constructor
  · cases stream <;> rfl
  · rw [unstaged]
    cases stream <;> rfl
  · rw [unnoticed]
    cases stream <;> exact (List.append_nil _).symm
  · intro other
    rw [if_pos keeps, written]
    cases stream with
    | stdout =>
      cases other with
      | stdout => rfl
      | stderr => exact (List.append_nil _).symm
    | stderr =>
      cases other with
      | stdout => exact (List.append_nil _).symm
      | stderr => rfl

/-! What each host function does to the host state -/

namespace Run

theorem keepsHost_edit (x : Except HostError LinearMemory) {α : Type} (a : α) :
    KeepsHost (do
      let m ← Run.ofExcept x
      Run.setMemory m
      return a) := by
  cases x with
  | error e => exact fun _ => rfl
  | ok m => exact fun _ => rfl

end Run

open Run (KeepsHost)

theorem Primitive.resize_keepsHost (c : Context) (requested : BitVec 32) :
    KeepsHost (resize c requested) := by
  apply (Run.silent_host.keepsHost).bind
  intro host
  split
  · exact (Run.silent_fatal _).keepsHost
  · apply (Run.silent_memory c).keepsHost.bind
    intro m
    split
    · exact (Run.silent_pure _).keepsHost
    · dsimp only
      split
      · have set (grown : LinearMemory) : KeepsHost (Run.setMemory grown) := fun _ => rfl
        exact (set _).bind fun _ => (Run.silent_log _ _ _).keepsHost.bind fun _ =>
          (Run.silent_pure _).keepsHost
      · exact (Run.silent_log _ _ _).keepsHost.bind fun _ => (Run.silent_pure _).keepsHost

theorem Primitive.run_keepsHost (c : Context) (p : Primitive) (args : List Val)
    (other : p ≠ setTempRet0 ∧ p ≠ notifyMemoryGrowth) : KeepsHost (p.run c args) := by
  obtain ⟨F, run_eq, arm⟩ := p.exists_arm args
  rw [run_eq]
  cases arm with
  | malformed => exact (Run.silent_fault _).keepsHost
  | notify => exact absurd rfl other.2
  | setTemp => exact absurd rfl other.1
  | getTemp => exact Run.silent_host.keepsHost.bind fun _ => (Run.silent_pure _).keepsHost
  | resize requested =>
    exact (resize_keepsHost c requested).bind fun _ => (Run.silent_pure _).keepsHost
  | abort | longjmp => exact (Run.silent_fatal _).keepsHost
  | copy dest src length =>
    have copied : KeepsHost (copy c dest src length) :=
      (Run.silent_memory c).keepsHost.bind fun m => Run.keepsHost_edit _ ()
    exact copied.bind fun _ => (Run.silent_pure _).keepsHost

namespace WasiCall

theorem storeU32_keepsHost (c : Context) (pointer word : BitVec 32) :
    KeepsHost (storeU32 c pointer word) :=
  (Run.silent_memory c).keepsHost.bind fun _ => Run.keepsHost_edit _ ()

theorem clockTime_keepsHost (c : Context) (id pointer : BitVec 32) :
    KeepsHost (clockTime c id pointer) := by
  unfold clockTime
  split
  · exact (Run.silent_pure _).keepsHost
  · exact (readClock_silent _).keepsHost.bind fun _ => (Run.silent_memory c).keepsHost.bind fun _ =>
      Run.keepsHost_edit _ _

theorem random_keepsHost (c : Context) (buffer length : BitVec 32) :
    KeepsHost (random c buffer length) :=
  (Run.silent_memory c).keepsHost.bind fun _ => (Run.silent_ofExcept _).keepsHost.bind fun _ =>
    (Run.silent_ask _).keepsHost.bind fun _ => Run.keepsHost_edit _ _

theorem run_keepsHost (c : Context) (w : WasiCall) (args : List Val) (other : w ≠ fdWrite) :
    KeepsHost (w.run c args) := by
  obtain ⟨F, run_eq, arm⟩ := w.exists_arm args
  rw [run_eq]
  cases arm with
  | malformed => exact (Run.silent_fault _).keepsHost
  | write => exact absurd rfl other
  | exit code => exact (Run.silent_fail _).keepsHost
  | sizes _ _ count size =>
    have both : KeepsHost (emptySizes c count size) :=
      (storeU32_keepsHost c count 0).bind fun _ => (storeU32_keepsHost c size 0).bind fun _ =>
        (Run.silent_pure _).keepsHost
    exact both.bind fun _ => (Run.silent_pure _).keepsHost
  | nothing => exact (Run.silent_pure _).keepsHost
  | clock id pointer =>
    exact (clockTime_keepsHost c id pointer).bind fun _ => (Run.silent_pure _).keepsHost
  | random buffer length =>
    exact (random_keepsHost c buffer length).bind fun _ => (Run.silent_pure _).keepsHost
  | unsupported => exact (Run.silent_fatal _).keepsHost

theorem decode_slice (m : Memory) (iovs count : Nat) :
    Iovec.decode (m.slice iovs (8 * count)) =
      (List.range count).map fun j => ⟨m.wordAt (iovs + 8 * j), m.wordAt (iovs + 8 * j + 4)⟩ := by
  induction count generalizing iovs with
  | zero => rfl
  | succ count ih =>
    have first : m.slice iovs (8 * (count + 1)) =
        m.slice iovs 4 ++ (m.slice (iovs + 4) 4 ++ m.slice (iovs + 8) (8 * count)) := by
      simp only [Memory.slice, ← List.map_append, List.range'_append_1]
      congr 2
      omega
    have decoded (rest : List UInt8) :
        Iovec.decode (m.slice iovs 4 ++ (m.slice (iovs + 4) 4 ++ rest)) =
          ⟨m.wordAt iovs, m.wordAt (iovs + 4)⟩ :: Iovec.decode rest := rfl
    rw [List.range_succ_eq_map, List.map_cons, List.map_map, first, decoded, ih]
    refine congrArg (_ :: ·) (List.map_congr_left fun j _ => ?_)
    have shift : iovs + 8 + 8 * j = iovs + 8 * (j + 1) := by omega
    simp only [Function.comp_apply, shift]

theorem eq_decode_of_readAll {m : Memory} {iovs count : Nat} {vs : List Iovec}
    (read : Iovec.readAll m iovs count = .ok vs) :
    vs = Iovec.decode (m.slice iovs (8 * count)) := by
  unfold Iovec.readAll at read
  by_cases fits : iovs + 8 * count ≤ m.size
  · simp only [checkBounds_of_le fits, Memory.read_of_le fits, bind, Except.bind] at read
    split at read
    · cases read
    · exact (Except.ok.inj read).symm
  · simp [checkBounds_of_lt (Nat.lt_of_not_le fits), bind, Except.bind] at read

theorem flatten_of_gather {m : Memory} {iovs count nwritten : Nat} {vs : List Iovec}
    (h : gather m iovs count nwritten = .ok vs) :
    (vs.map (Iovec.bytes m)).flatten = m.gathered iovs count := by
  have read : Iovec.readAll m iovs count = .ok vs := by
    unfold gather at h
    cases read : Iovec.readAll m iovs count with
    | error e => simp [read, bind, Except.bind] at h
    | ok vs' =>
      simp only [read, bind, Except.bind] at h
      split at h
      · cases h
      · split at h
        · cases h
        · exact congrArg Except.ok (Except.ok.inj h)
  rw [eq_decode_of_readAll read, decode_slice, List.map_map]
  rfl

theorem stream?_eq_some_iff (fd : BitVec 32) (stream : OutputStream) :
    stream? fd = some stream ↔ fd = stream.descriptor := by
  unfold stream?
  cases stream with
  | stdout => simp [OutputStream.descriptor]
  | stderr =>
    simp only [OutputStream.descriptor]
    constructor
    · split <;> simp_all
    · rintro rfl
      rfl

theorem startAt_count (m : LinearMemory) (offset : Nat) (word : BitVec 32)
    (fits : offset + 4 ≤ m.size) (s : Store) :
    Run.startAt (do
      let m ← Run.ofExcept (m.edit (·.writeU32 offset word))
      Run.setMemory m
      return Errno.success) s =
    .done (.ok 0, { s with memory := some (m.put (m.store offset (Word.bytes word 4))) }) := by
  rw [m.edit_writeU32, if_pos fits]
  rfl

theorem deliver_keeps (stream : OutputStream) (chunks : List (List UInt8)) (m : LinearMemory)
    (offset : Nat) (word : BitVec 32) (fits : offset + 4 ≤ m.size) (s : Store) :
    Action.Always (fun p : Except Stop (BitVec 32) × Store =>
      (p.2.host = s.host ∧ (p.1 = .ok 0 → s.host.config.captureOutput = false)) ∨
        p.1 = .ok 0 ∧ s.host.config.captureOutput = true ∧
          p.2.host = s.host.capture stream chunks.flatten)
      (Run.startAt (do
        if ← deliver stream chunks then
          let m ← Run.ofExcept (m.edit (·.writeU32 offset word))
          Run.setMemory m
          return Errno.success
        else return Errno.io) s) := by
  apply Run.always_startAt_bind
  rw [startAt_deliver]
  cases keeps : s.host.config.captureOutput with
  | true =>
    rw [if_pos rfl, Action.always_done]
    dsimp only
    rw [if_pos rfl, startAt_count m offset word fits]
    exact .inr ⟨rfl, rfl, rfl⟩
  | false =>
    apply (sendAll_silent stream chunks s).mono
    rintro ⟨_ | _ | _, s'⟩ same
    all_goals cases same
    · exact .inl ⟨rfl, fun _ => rfl⟩
    · exact .inl ⟨rfl, fun _ => rfl⟩
    · dsimp only
      rw [if_pos rfl, startAt_count m offset word fits]
      exact .inl ⟨rfl, fun _ => rfl⟩

theorem write_keeps (c : Context) (fd iovs count nwritten : BitVec 32) (s : Store) :
    ((write c fd iovs count nwritten).startAt s).Always fun p =>
      (p.2.host = s.host ∧ (p.1 = .ok 0 → s.host.config.captureOutput = false)) ∨
        p.1 = .ok 0 ∧ s.host.config.captureOutput = true ∧
          ∃ m stream, s.memory = some m ∧ fd = stream.descriptor ∧
            p.2.host = s.host.capture stream (m.gathered iovs.toNat count.toNat) := by
  unfold write
  split
  · exact .inl ⟨rfl, nofun⟩
  · rename_i stream known
    apply Run.always_startAt_bind
    rw [ContextIn.startAt_memory]
    cases found : c.memoryIn s with
    | none => exact .inl ⟨rfl, nofun⟩
    | some m =>
      rw [Action.always_done]
      dsimp only
      apply Run.always_startAt_bind
      cases gathered : gather m.toMemory iovs.toNat count.toNat nwritten.toNat with
      | error e => exact .inl ⟨rfl, nofun⟩
      | ok vs =>
        rw [Run.startAt_ofExcept_ok, Action.always_done]
        dsimp only
        split
        · exact .inl ⟨rfl, nofun⟩
        · apply (deliver_keeps stream _ m _ _ (fits_of_gather gathered) s).mono
          rintro p (kept | ⟨ok, keeps, captured⟩)
          · exact .inl kept
          · rw [flatten_of_gather gathered] at captured
            exact .inr ⟨ok, keeps, m, stream, ContextIn.memory_of_memoryIn found,
              (stream?_eq_some_iff fd stream).mp known, captured⟩

end WasiCall

/-- What takes a word and nothing else does not run without one. -/
theorem Event.run_word (F : BitVec 32 → Run (List Val)) (args : List Val) :
    (match args with
      | [.i32 w] => F w
      | _ => Run.fault .malformed) =
    match word? args with
      | some w => F w
      | none => Run.fault .malformed := by
  split
  · rfl
  · rename_i other
    have none : word? args = none := by
      unfold word?
      split
      · exact absurd rfl (other _)
      · rfl
    rw [none]

theorem Primitive.notify_follows (c : Context) (args : List Val) (s : Store) :
    ((notifyMemoryGrowth.run c args).startAt s).Always fun p =>
      s.host.Follows (.served (.primitive .notifyMemoryGrowth) args s p.1) p.2.host := by
  have run_eq : notifyMemoryGrowth.run c args = _ := Event.run_word (fun notice => do
    notifyGrowth notice
    return []) args
  rw [run_eq]
  cases told : Event.word? args with
  | none => exact .same rfl rfl told fun _ _ => rfl
  | some notice =>
    intro _
    exact ⟨rfl, rfl, by rw [Event.notice?, told]; rfl, fun _ => by simp [Event.written]; rfl⟩

theorem Primitive.stage_follows (c : Context) (args : List Val) (s : Store) :
    ((setTempRet0.run c args).startAt s).Always fun p =>
      s.host.Follows (.served (.primitive .setTempRet0) args s p.1) p.2.host := by
  have run_eq : setTempRet0.run c args = _ := Event.run_word (fun value => do
    Run.modifyHost fun h => { h with staging := ⟨value⟩ }
    return []) args
  rw [run_eq]
  cases told : Event.word? args with
  | none => exact .same rfl told rfl fun _ _ => rfl
  | some value =>
    refine ⟨rfl, ?_, (List.append_nil _).symm, fun _ => by simp [Event.written]; rfl⟩
    rw [Event.staged?, told]
    rfl

theorem OutputStream.descriptor_eq_iff (stream other : OutputStream) :
    stream.descriptor = other.descriptor ↔ other = stream := by
  cases stream <;> cases other <;> decide

namespace WasiCall

theorem run_write_malformed (c : Context) {args : List Val}
    (other : ∀ fd iovs count nwritten, args ≠ [.i32 fd, .i32 iovs, .i32 count, .i32 nwritten]) :
    fdWrite.run c args = Run.fault .malformed := by
  unfold run
  dsimp only
  split
  · exact absurd rfl (other _ _ _ _)
  · rfl

theorem written_of_ne {args : List Val} {s : Store} {r : Except Stop (List Val)}
    (failed : r ≠ .ok [.i32 0]) (stream : OutputStream) :
    (Event.served (.wasi .fdWrite) args s r).written stream = [] := by
  unfold Event.written
  split
  · rename_i same
    cases same
    exact absurd rfl failed
  · rfl

theorem write_follows (c : Context) (args : List Val) (s : Store) :
    ((fdWrite.run c args).startAt s).Always fun p =>
      s.host.Follows (.served (.wasi .fdWrite) args s p.1) p.2.host := by
  by_cases formed : ∃ fd iovs count nwritten : BitVec 32,
      args = [.i32 fd, .i32 iovs, .i32 count, .i32 nwritten]
  · obtain ⟨fd, iovs, count, nwritten, rfl⟩ := formed
    apply Run.always_startAt_bind
    apply (write_keeps c fd iovs count nwritten s).mono
    rintro ⟨r, s'⟩ (⟨kept, off⟩ | ⟨rfl, keeps, m, stream, found, rfl, captured⟩)
    · rcases r with stop | errno
      · exact .same kept rfl rfl fun _ => written_of_ne nofun
      · refine .same kept rfl rfl fun keeps => written_of_ne fun ok => ?_
        obtain rfl : errno = 0 := by simpa using ok
        cases keeps.symm.trans (off rfl)
    · change s.host.Follows (.served (.wasi .fdWrite) _ s (.ok [.i32 0])) s'.host
      rw [captured]
      apply HostState.Follows.capture rfl rfl keeps
      intro other
      have told : (Event.served (.wasi .fdWrite)
          [.i32 stream.descriptor, .i32 iovs, .i32 count, .i32 nwritten] s
            (.ok [.i32 0])).written other =
          match s.memory with
          | some m => if stream.descriptor = other.descriptor then
            m.gathered iovs.toNat count.toNat else []
          | none => [] := rfl
      simp only [told, found, OutputStream.descriptor_eq_iff]
  · rw [run_write_malformed c fun fd iovs count nwritten same =>
      formed ⟨fd, iovs, count, nwritten, same⟩]
    exact .same rfl rfl rfl fun _ => written_of_ne nofun

end WasiCall

theorem HostFunction.run_follows (c : Context) (f : HostFunction) (args : List Val) (s : Store)
    (other : ∀ t, f ≠ .trampoline t) :
    ((f.run c args).startAt s).Always fun p => s.host.Follows (.served f args s p.1) p.2.host := by
  cases f with
  | trampoline t => exact absurd rfl (other t)
  | syscall n =>
    exact ((Syscall.run_silent n).keepsHost s).mono fun _ same => .same same rfl rfl fun _ _ => rfl
  | primitive p =>
    by_cases stages : p = .setTempRet0
    · subst stages
      exact Primitive.stage_follows c args s
    · by_cases notifies : p = .notifyMemoryGrowth
      · subst notifies
        exact Primitive.notify_follows c args s
      · apply (p.run_keepsHost c args ⟨stages, notifies⟩ s).mono
        refine fun _ same => .same same ?_ ?_ fun _ _ => rfl
        · cases p with
          | setTempRet0 => exact absurd rfl stages
          | _ => rfl
        · cases p with
          | notifyMemoryGrowth => exact absurd rfl notifies
          | _ => rfl
  | wasi w =>
    by_cases writes : w = .fdWrite
    · subst writes
      exact WasiCall.write_follows c args s
    · apply (w.run_keepsHost c args writes s).mono
      refine fun _ same => .same same rfl rfl fun _ stream => ?_
      cases w with
      | fdWrite => exact absurd rfl writes
      | _ => rfl

/-! What records tell of the host state -/

namespace History

/-- The last word that was given to be kept, and zero before the first. -/
def staged (past : History) : BitVec 32 := (past.filterMap (·.staged?)).getLastD 0

def notices (past : History) : List (BitVec 32) := past.filterMap (·.notice?)

def written (past : History) (stream : OutputStream) : List UInt8 :=
  past.flatMap (·.written stream)

structure Tells (c : Config) (past : History) (h : HostState) : Prop where
  config : h.config = c
  staging : h.staging.value = past.staged
  notices : h.notices = past.notices
  captured (stream : OutputStream) :
    h.captured stream = if c.captureOutput then past.written stream else []

theorem staged_append (past : History) (e : Event) :
    staged (past ++ [e]) = e.staged?.getD past.staged := by
  simp only [staged, List.filterMap_append, List.filterMap_cons, List.filterMap_nil]
  cases e.staged? with
  | none => simp
  | some value => simp

theorem notices_append (past : History) (e : Event) :
    notices (past ++ [e]) = past.notices ++ e.notice?.toList := by
  simp only [notices, List.filterMap_append, List.filterMap_cons, List.filterMap_nil]
  cases e.notice? <;> rfl

theorem written_append (past : History) (e : Event) (stream : OutputStream) :
    written (past ++ [e]) stream = past.written stream ++ e.written stream := by
  simp [written]

theorem Tells.follow {c : Config} {past : History} {h h' : HostState} {e : Event}
    (tells : past.Tells c h) (follows : h.Follows e h') : Tells c (past ++ [e]) h' where
  config := follows.config.trans tells.config
  staging := by rw [follows.staging, tells.staging, staged_append]
  notices := by rw [follows.notices, tells.notices, notices_append]
  captured stream := by
    rw [follows.captured, tells.captured, tells.config, written_append]
    cases c.captureOutput <;> rfl

end History

/-- The call came upon the host state that the calls before it had made, and if it asked for the kept
word it was told the last one. -/
def Event.Faithful (c : Config) (past : History) : Event → Prop
  | served f _ before result => past.Tells c before.host ∧
    (f = .primitive .getTempRet0 → result = .ok [.i32 past.staged])
  | _ => True

namespace History

def Faithful (c : Config) (h : History) : Prop :=
  ∀ past e later, h = past ++ e :: later → e.Faithful c past

theorem Faithful.append {c : Config} {h : History} {e : Event} (all : h.Faithful c)
    (last : e.Faithful c h) : Faithful c (h ++ [e]) := by
  intro past e' later split
  rw [List.append_eq_append_iff] at split
  rcases split with ⟨more, rfl, split⟩ | ⟨more, rfl, split⟩
  · cases more with
    | nil =>
      cases split
      rwa [List.append_nil]
    | cons x more => simp at split
  · cases more with
    | nil =>
      cases split
      rwa [List.append_nil] at last
    | cons x more =>
      obtain ⟨rfl, -⟩ := List.cons.inj split
      exact all past e' more rfl

structure Current (c : Config) (s : Store) (h : History) : Prop where
  tells : h.Tells c s.host
  faithful : h.Faithful c

theorem Current.follow {c : Config} {s s' : Store} {h : History} {e : Event}
    (current : Current c s h) (follows : s.host.Follows e s'.host) (faithful : e.Faithful c h) :
    Current c s' (h ++ [e]) :=
  ⟨current.tells.follow follows, current.faithful.append faithful⟩

theorem answer_of_getTempRet0 (caller : Context) {args : List Val}
    (count : args.length ≤ Primitive.getTempRet0.type.params.length) (s : Store) :
    ((Primitive.getTempRet0.run caller args).startAt s).Always fun p =>
      p.1 = .ok [.i32 s.host.staging.value] := by
  obtain rfl : args = [] := List.eq_nil_of_length_eq_zero (Nat.le_zero.mp count)
  rfl

theorem invariant (c : Config) : HistoryInvariant c (Current c) where
  fresh m origin := by
    refine ⟨⟨rfl, rfl, rfl, fun stream => ?_⟩, fun past e later split => by simp at split⟩
    cases stream <;> exact (ite_self _).symm
  host current same := ⟨same ▸ current.tells, current.faithful⟩
  entered fn args current := current.follow (.same rfl rfl rfl fun _ _ => rfl) trivial
  dispatched t args current := current.follow (.same rfl rfl rfl fun _ _ => rfl) trivial
  served := by
    intro s h caller f args other count current
    have told : ((f.run caller args).startAt s).Always fun p =>
        f = .primitive .getTempRet0 → p.1 = .ok [.i32 h.staged] := by
      by_cases asks : f = .primitive .getTempRet0
      · subst asks
        rw [← current.tells.staging]
        exact (answer_of_getTempRet0 caller count s).mono fun _ answer _ => answer
      · exact (f.run_follows caller args s other).mono fun _ _ same => absurd same asks
    apply ((f.run_follows caller args s other).and told).mono
    exact fun p both => current.follow both.1 ⟨current.tells, both.2⟩

end History

namespace Guest

/-- What the record of a guest's life tells: of the making of the guest, and of each call. -/
structure Remembered (c : Config)
    (x : (Except GuestError Guest × History) × List (Answer × History)) : Prop where
  faithful : x.1.2.Faithful c
  made (g : Guest) : x.1.1 = .ok g → x.1.2.Tells c g.store.host
  grows : List.IsChain (· <+: ·) (x.1.2 :: x.2.map (·.2))
  called : ∀ y ∈ x.2, y.2.Faithful c ∧ y.2.Tells c y.1.2.store.host

/-- A guest is made of any module, with any configuration, and any exports of it are called, whether
or not they fail. With a recorder all this goes as it does without one. The record grows, so what it
held before a call that failed is kept, and what that call did is added. After the making of the guest
and after each call it tells the host state: the kept word is the last one given, the notices of growth
are all there were, and the captured output is what the successful writes put out, in order. The same
holds wherever a host function was called on the way; and each call that asked for the kept word was
told the last one. -/
theorem life_remembered (m : Option Module) (c : Config) (calls : List ExportCall) :
    unrecorded <$> recordedLife m c calls = life m c calls ∧
      (recordedLife m c calls).Always (Remembered c) := by
  have along := along_life (History.invariant c) m calls
  constructor
  · exact along.erase unrecorded fun _ _ ended => ended.1
  · refine along.always fun x _ ended => ?_
    obtain ⟨⟨⟨_, sound⟩, made⟩, chain, called⟩ := ended.2
    exact ⟨sound.faithful, fun g same => (made g same).good.tells, chain, fun y member =>
      ⟨(called y member).good.faithful, (called y member).good.tells⟩⟩

def keepingImage : Image where
  code := [.host Primitive.setTempRet0.type (.primitive .setTempRet0),
    .guest
      { type := ⟨[.i32], []⟩
        body := fun args => do
          let _ ← Wasm.Body.callFunc 0 args
          Wasm.Body.trap .unreachable }]
  exports := [⟨"keep", .func, 1⟩]
  maxDepth := 10

/-- The record has what a call did before it failed. -/
example (s : Store) :
    (recordedCall ⟨keepingImage, s⟩ [] "keep" [7]).Always fun ((result, _), h) =>
      result.toBool = false ∧ h.staged = 7 :=
  ⟨rfl, rfl⟩

end Guest

end GuestHost
