import GuestHost.Proofs.HostHistory
import GuestHost.Proofs.PlainMemory

/-!
Gathered writes seen over the plain bytes of memory. Main statement: where output is kept, the first
range beyond the size decides how a write ends, and otherwise the sum of the lengths does. One that is
served puts out what its buffers held when it began.
-/

namespace GuestHost

open Wasm (Val)

namespace PlainMemory

/-- Each buffer takes eight bytes of the table: where it begins and how long it is. -/
def buffers (bs : PlainMemory) (iovs count : Nat) : List Span :=
  (List.range count).map fun j => ⟨bs.number (iovs + 8 * j) 4, bs.number (iovs + 8 * j + 4) 4⟩

/-- The ranges that a write names: the table, the cell of the counter, and the buffers. -/
def named (bs : PlainMemory) (iovs count nwritten : Nat) : List Span :=
  ⟨iovs, 8 * count⟩ :: ⟨nwritten, 4⟩ :: bs.buffers iovs count

def gathered (bs : PlainMemory) (spans : List Span) : List UInt8 :=
  spans.flatMap fun r => bs.read r.offset r.length

def total (spans : List Span) : Nat := (spans.map (·.length)).sum

theorem beyond?_buffers {bs : PlainMemory} {iovs count nwritten : Nat}
    (fit : bs.beyond? (bs.named iovs count nwritten) = none) :
    bs.beyond? (bs.buffers iovs count) = none := by
  have table := fits_of_beyond? fit (.head _)
  have counter := fits_of_beyond? fit (.tail _ (.head _))
  rwa [named, beyond?_cons_of_le table, beyond?_cons_of_le counter] at fit

theorem number_lt (bs : PlainMemory) (offset length : Nat) :
    bs.number offset length < 256 ^ length := by
  have digit : ∀ d ∈ (bs.read offset length).map (·.toNat), d < 256 := by
    intro d member
    obtain ⟨b, -, rfl⟩ := List.mem_map.mp member
    exact b.toNat_lt
  have short : ((bs.read offset length).map (·.toNat)).length ≤ length := by
    simp [read]
  exact (Nat.ofDigits_lt_base_pow_length (by decide) digit).trans_le
    (Nat.pow_le_pow_right (by decide) short)

end PlainMemory

/-- How a gathered write ends where output is kept: what it answers, and the store that it leaves. -/
inductive WriteEnds (s : Store) (m : LinearMemory) (fd : BitVec 32) (iovs count nwritten : Nat) :
    Except Stop (BitVec 32) → Store → Prop
  | badFile (other : ∀ stream : OutputStream, fd ≠ stream.descriptor) :
    WriteEnds s m fd iovs count nwritten (.ok 8) s
  | outOfBounds {stream : OutputStream} {r : Span} (known : fd = stream.descriptor)
      (first : m.plain.beyond? (m.plain.named iovs count nwritten) = some r) :
    WriteEnds s m fd iovs count nwritten
      (.error (.host (.outOfBounds r.offset r.length m.size))) s
  | invalid {stream : OutputStream} (known : fd = stream.descriptor)
      (fit : m.plain.beyond? (m.plain.named iovs count nwritten) = none)
      (much : m.size < PlainMemory.total (m.plain.buffers iovs count)) :
    WriteEnds s m fd iovs count nwritten (.ok 28) s
  | written {stream : OutputStream} {m' : LinearMemory} (known : fd = stream.descriptor)
      (fit : m.plain.beyond? (m.plain.named iovs count nwritten) = none)
      (room : PlainMemory.total (m.plain.buffers iovs count) ≤ m.size)
      (stored : m'.plain = m.plain.overwrite nwritten
        (PlainMemory.digits 4 (PlainMemory.total (m.plain.buffers iovs count))))
      (exact : m'.plain.number nwritten 4 = PlainMemory.total (m.plain.buffers iovs count))
      (limit : m'.limit = m.limit) :
    WriteEnds s m fd iovs count nwritten (.ok 0) { s with
      memory := some m'
      host := s.host.capture stream (m.plain.gathered (m.plain.buffers iovs count)) }

/-! Ranges as they are decoded and checked -/

theorem Memory.fits_of_beyond? {m : Memory} {spans : List Span}
    (none : m.plain.beyond? spans = none) {r : Span} (member : r ∈ spans) :
    r.offset + r.length ≤ m.size := by
  have fits := PlainMemory.fits_of_beyond? none member
  rwa [length_plain] at fits

namespace Iovec

def span (v : Iovec) : Span := ⟨v.base.toNat, v.length.toNat⟩

theorem total_eq (vs : List Iovec) : total vs = PlainMemory.total (vs.map span) := by
  rw [total, PlainMemory.total, List.map_map]
  rfl

theorem forM_check (m : Memory) (vs : List Iovec) :
    vs.forM (check m) = match m.plain.beyond? (vs.map span) with
      | none => .ok ()
      | some r => .error (.outOfBounds r.offset r.length m.size) := by
  induction vs with
  | nil => rfl
  | cons v vs ih =>
    have one : (v :: vs).forM (check m) = check m v >>= fun _ => vs.forM (check m) := rfl
    rw [one, List.map_cons]
    by_cases fits : v.base.toNat + v.length.toNat ≤ m.size
    · have passed : check m v = .ok () := by rw [check, checkBounds_of_le fits]; rfl
      rw [passed, PlainMemory.beyond?_cons_of_le (by simpa [span] using fits), ← ih]
      rfl
    · have beyond := Nat.lt_of_not_le fits
      have failed : check m v = .error (.outOfBounds v.base.toNat v.length.toNat m.size) := by
        rw [check, checkBounds_of_lt beyond]
        rfl
      rw [failed, PlainMemory.beyond?_cons_of_lt (by simpa [span] using beyond)]
      rfl

theorem map_bytes {m : Memory} {vs : List Iovec} (fit : m.plain.beyond? (vs.map span) = none) :
    vs.map (bytes m) = (vs.map span).map fun r => m.plain.read r.offset r.length := by
  rw [List.map_map]
  apply List.map_congr_left
  intro v member
  exact Memory.slice_eq_read (Memory.fits_of_beyond? fit (List.mem_map_of_mem member))

end Iovec

namespace Memory

variable {m : Memory} {iovs count nwritten : Nat}

theorem toNat_wordAt {i : Nat} (fits : i + 4 ≤ m.size) :
    (m.wordAt i).toNat = m.plain.number i 4 := by
  rw [wordAt, Word.ofBytes_eq_ofDigits, slice_eq_read fits, BitVec.toNat_ofNat]
  exact Nat.mod_eq_of_lt (m.plain.number_lt i 4)

theorem map_span_decode (fits : iovs + 8 * count ≤ m.size) :
    (Iovec.decode (m.slice iovs (8 * count))).map Iovec.span = m.plain.buffers iovs count := by
  rw [WasiCall.decode_slice, List.map_map]
  apply List.map_congr_left
  intro j member
  rw [List.mem_range] at member
  simp only [Function.comp_apply, Iovec.span]
  rw [toNat_wordAt (by omega), toNat_wordAt (by omega)]

theorem plain_count {m : LinearMemory} (fits : nwritten + 4 ≤ m.size) (n : Nat) :
    (m.put (m.store nwritten (Word.bytes (BitVec.ofNat 32 n) 4))).plain =
      m.plain.overwrite nwritten (PlainMemory.digits 4 n) := by
  have low : PlainMemory.digits 4 (n % 2 ^ 32) = PlainMemory.digits 4 n :=
    PlainMemory.digits_mod 4 n
  rw [m.put_toMemory (size_store _ _ _), plain_store (by simpa using fits), Word.bytes_eq_digits,
    BitVec.toNat_ofNat, low]

theorem number_count {m : LinearMemory} (fits : nwritten + 4 ≤ m.size) {n : Nat}
    (small : n < 2 ^ 32) :
    (m.put (m.store nwritten (Word.bytes (BitVec.ofNat 32 n) 4))).plain.number nwritten 4 = n := by
  rw [plain_count fits, PlainMemory.number_overwrite _ _ (by simpa using fits)]
  exact Nat.mod_eq_of_lt small

theorem gather_of_long (fits : iovs + 8 * count ≤ m.size) (long : 2 ^ 32 ≤ 8 * count)
    (nwritten : Nat) :
    WasiCall.gather m iovs count nwritten = .error (.outOfBounds iovs (8 * count) m.size) := by
  have long : Nat.pow 2 32 ≤ 8 * count := long
  rw [WasiCall.gather, Iovec.readAll, checkBounds_of_le fits]
  simp only [bind, Except.bind, if_pos long]
  rfl

/-- A write checks the ranges that it names, in their order. The length of a table that fits is a
word, but for a table of 2^32 bytes. -/
theorem gather_eq (short : iovs + 8 * count ≤ m.size → 8 * count < 2 ^ 32) (nwritten : Nat) :
    WasiCall.gather m iovs count nwritten =
      match m.plain.beyond? (m.plain.named iovs count nwritten) with
      | none => .ok (Iovec.decode (m.slice iovs (8 * count)))
      | some r => .error (.outOfBounds r.offset r.length m.size) := by
  rw [WasiCall.gather, Iovec.readAll, PlainMemory.named]
  by_cases table : iovs + 8 * count ≤ m.size
  · have short : ¬ Nat.pow 2 32 ≤ 8 * count := Nat.not_le.mpr (short table)
    rw [PlainMemory.beyond?_cons_of_le (by simpa using table), checkBounds_of_le table,
      read_of_le table]
    by_cases counter : nwritten + 4 ≤ m.size
    · rw [PlainMemory.beyond?_cons_of_le (by simpa using counter), checkBounds_of_le counter,
        ← map_span_decode table]
      simp only [bind, Except.bind, if_neg short, pure, Except.pure, Iovec.forM_check]
      cases m.plain.beyond? ((Iovec.decode (m.slice iovs (8 * count))).map Iovec.span) <;> rfl
    · have beyond := Nat.lt_of_not_le counter
      rw [PlainMemory.beyond?_cons_of_lt (by simpa using beyond), checkBounds_of_lt beyond]
      simp only [bind, Except.bind, if_neg short, pure, Except.pure]
  · have beyond := Nat.lt_of_not_le table
    rw [PlainMemory.beyond?_cons_of_lt (by simpa using beyond), checkBounds_of_lt beyond]
    rfl

end Memory

/-- The sum of the lengths is stored in full, since it is not beyond the size. -/
theorem WriteEnds.of_stored {s : Store} {m : LinearMemory} {fd : BitVec 32} {iovs count nwritten : Nat}
    {stream : OutputStream} (known : fd = stream.descriptor)
    (fit : m.plain.beyond? (m.plain.named iovs count nwritten) = none)
    (room : PlainMemory.total (m.plain.buffers iovs count) ≤ m.size) (small : m.size < 2 ^ 32)
    (counter : nwritten + 4 ≤ m.size) :
    WriteEnds s m fd iovs count nwritten (.ok 0) { s with
      memory := some (m.put (m.store nwritten (Word.bytes
        (BitVec.ofNat 32 (PlainMemory.total (m.plain.buffers iovs count))) 4)))
      host := s.host.capture stream (m.plain.gathered (m.plain.buffers iovs count)) } :=
  .written known fit room (Memory.plain_count counter _)
    (Memory.number_count counter (room.trans_lt small)) (m.limit_put _)

namespace WasiCall

theorem startAt_keep {m : LinearMemory} {nwritten : Nat} (fits : nwritten + 4 ≤ m.size)
    (stream : OutputStream) (chunks : List (List UInt8)) (n : Nat) {s : Store}
    (keeps : s.host.config.captureOutput = true) :
    Run.startAt (do
        if ← deliver stream chunks then
          let m ← Run.ofExcept (m.edit (·.writeU32 nwritten (BitVec.ofNat 32 n)))
          Run.setMemory m
          return Errno.success
        else return Errno.io) s =
      .done (.ok 0, { s with
        memory := some (m.put (m.store nwritten (Word.bytes (BitVec.ofNat 32 n) 4)))
        host := s.host.capture stream chunks.flatten }) := by
  rw [Run.startAt_bind, startAt_deliver, if_pos keeps, Action.done_bind]
  dsimp only
  rw [if_pos rfl, startAt_count m nwritten _ fits]

theorem write_of_other {fd : BitVec 32} (other : ∀ stream : OutputStream, fd ≠ stream.descriptor)
    (c : Context) (iovs count nwritten : BitVec 32) :
    write c fd iovs count nwritten = pure 8 := by
  have unknown : stream? fd = none := by
    cases known : stream? fd with
    | none => rfl
    | some stream => exact absurd ((stream?_eq_some_iff fd stream).mp known) (other stream)
  rw [write, unknown]
  rfl

section

variable {c : Context} {s : Store} {m : LinearMemory} {fd iovs count nwritten : BitVec 32}
  {stream : OutputStream}

theorem startAt_write (found : c.memoryIn s = some m) (known : fd = stream.descriptor)
    (iovs count nwritten : BitVec 32) :
    (write c fd iovs count nwritten).startAt s = Run.startAt (do
      let vs ← Run.ofExcept (gather m.toMemory iovs.toNat count.toNat nwritten.toNat)
      let total := Iovec.total vs
      if m.size < total then return Errno.invalid
      else if ← deliver stream (vs.map (Iovec.bytes m.toMemory)) then
        let m ← Run.ofExcept (m.edit (·.writeU32 nwritten.toNat (BitVec.ofNat 32 total)))
        Run.setMemory m
        return Errno.success
      else return Errno.io) s := by
  rw [write, (stream?_eq_some_iff fd stream).mpr known]
  dsimp only
  rw [Run.startAt_bind, ContextIn.startAt_memory, found, Action.done_bind]

theorem startAt_write_of_missing (missing : c.memoryIn s = none) (known : fd = stream.descriptor)
    (iovs count nwritten : BitVec 32) :
    (write c fd iovs count nwritten).startAt s = .done (.error (.host .noMemory), s) := by
  rw [write, (stream?_eq_some_iff fd stream).mpr known]
  dsimp only
  rw [Run.startAt_bind, ContextIn.startAt_memory, missing, Action.done_bind]

theorem startAt_write_of_beyond (found : c.memoryIn s = some m) (known : fd = stream.descriptor)
    (short : iovs.toNat + 8 * count.toNat ≤ m.size → 8 * count.toNat < 2 ^ 32) {r : Span}
    (first : m.plain.beyond? (m.plain.named iovs.toNat count.toNat nwritten.toNat) = some r) :
    (write c fd iovs count nwritten).startAt s =
      .done (.error (.host (.outOfBounds r.offset r.length m.size)), s) := by
  rw [startAt_write found known, Run.startAt_bind, Memory.gather_eq short, first]
  rfl

theorem startAt_write_of_long (found : c.memoryIn s = some m) (known : fd = stream.descriptor)
    (fits : iovs.toNat + 8 * count.toNat ≤ m.size) (long : 2 ^ 32 ≤ 8 * count.toNat)
    (nwritten : BitVec 32) :
    (write c fd iovs count nwritten).startAt s =
      .done (.error (.host (.outOfBounds iovs.toNat (8 * count.toNat) m.size)), s) := by
  rw [startAt_write found known, Run.startAt_bind, Memory.gather_of_long fits long]
  rfl

/-- Where every range fits, the sum of the lengths is looked at before anything is put out. -/
theorem startAt_write_of_fit (found : c.memoryIn s = some m) (known : fd = stream.descriptor)
    (short : 8 * count.toNat < 2 ^ 32)
    (fit : m.plain.beyond? (m.plain.named iovs.toNat count.toNat nwritten.toNat) = none) :
    (write c fd iovs count nwritten).startAt s =
      if m.size < PlainMemory.total (m.plain.buffers iovs.toNat count.toNat) then
        .done (.ok 28, s)
      else Run.startAt (do
        if ← deliver stream ((m.plain.buffers iovs.toNat count.toNat).map fun r =>
            m.plain.read r.offset r.length) then
          let m ← Run.ofExcept (m.edit (·.writeU32 nwritten.toNat
            (BitVec.ofNat 32 (PlainMemory.total (m.plain.buffers iovs.toNat count.toNat)))))
          Run.setMemory m
          return Errno.success
        else return Errno.io) s := by
  have spans := Memory.map_span_decode (Memory.fits_of_beyond? fit (.head _))
  have chunks := Iovec.map_bytes (spans.symm ▸ PlainMemory.beyond?_buffers fit)
  rw [startAt_write found known, Run.startAt_bind, Memory.gather_eq fun _ => short, fit]
  dsimp only
  rw [Run.startAt_ofExcept_ok, Action.done_bind]
  dsimp only
  rw [Iovec.total_eq, chunks, spans]
  split <;> rfl

theorem startAt_write_ends (found : c.memoryIn s = some m)
    (keeps : s.host.config.captureOutput = true) (small : m.size < 2 ^ 32)
    (fd iovs count nwritten : BitVec 32) :
    ∃ r s', (write c fd iovs count nwritten).startAt s = .done (r, s') ∧
      WriteEnds s m fd iovs.toNat count.toNat nwritten.toNat r s' := by
  by_cases stream : ∃ stream : OutputStream, fd = stream.descriptor
  · obtain ⟨stream, known⟩ := stream
    cases first : m.plain.beyond? (m.plain.named iovs.toNat count.toNat nwritten.toNat) with
    | some r =>
      exact ⟨_, s, startAt_write_of_beyond found known (by omega) first, .outOfBounds known first⟩
    | none =>
      have fits {r : Span} (member : r ∈ m.plain.named iovs.toNat count.toNat nwritten.toNat) :=
        Memory.fits_of_beyond? first member
      have counter : nwritten.toNat + 4 ≤ m.size := fits (.tail _ (.head _))
      have table : iovs.toNat + 8 * count.toNat ≤ m.size := fits (.head _)
      rw [startAt_write_of_fit found known (by omega) first]
      split
      · rename_i much
        exact ⟨.ok 28, s, rfl, .invalid known first much⟩
      · rename_i room
        refine ⟨_, _, startAt_keep counter stream _ _ keeps, ?_⟩
        rw [← List.flatMap_def]
        exact .of_stored known first (Nat.le_of_not_lt room) small counter
  · have other := not_exists.mp stream
    rw [write_of_other other]
    exact ⟨.ok 8, s, rfl, .badFile other⟩

end

/-- A write is called on an exported memory that 32-bit addresses go beyond, with output kept, from
any host state and with any words. It answers 8 where the descriptor is not one of the two streams.
Otherwise it fails for the first of the ranges that it names which ends beyond the size, and with all
of them in bounds answers 28 where the lengths add up to more than the size. Until then nothing has
changed. Otherwise it answers zero, puts out what the buffers held when it was called, and stores the
sum of their lengths, whatever of the table and the buffers is overwritten by that; no other byte and
nothing else of the store changes. -/
theorem write_ends (c : Context) (s : Store) (m : LinearMemory) (found : c.memoryIn s = some m)
    (keeps : s.host.config.captureOutput = true) (small : m.size < 2 ^ 32)
    (fd iovs count nwritten : BitVec 32) :
    ∃ r s', ((HostFunction.wasi fdWrite).run c
        [.i32 fd, .i32 iovs, .i32 count, .i32 nwritten]).startAt s =
          .done (r.map fun word => [.i32 word], s') ∧
      WriteEnds s m fd iovs.toNat count.toNat nwritten.toNat r s' := by
  obtain ⟨r, s', ended, ends⟩ := startAt_write_ends found keeps small fd iovs count nwritten
  refine ⟨r, s', ?_, ends⟩
  have run_eq : (HostFunction.wasi fdWrite).run c
      [.i32 fd, .i32 iovs, .i32 count, .i32 nwritten] =
        answer (write c fd iovs count nwritten) := rfl
  rw [run_eq, answer, Run.startAt_bind, ended, Action.done_bind]
  cases r <;> rfl

def tablePage : LinearMemory :=
  (LinearMemory.new 1 none).put ((Memory.zeros pageSize).store 0 [0, 0, 0, 0, 8, 0, 0, 0])

def tableStore : Store where
  memory := some tablePage
  host := { config := { captureOutput := true }, origin := 0 }

theorem size_tablePage : tablePage.size = 65536 := by
  rw [tablePage, LinearMemory.put_toMemory _ (by simp [Memory.zeros, LinearMemory.new])]
  simp [Memory.zeros, pageSize]

theorem write_ends_table :
    ((⟨true, true, fun _ => none⟩ : Context).memoryIn tableStore = some tablePage ∧
      tableStore.host.config.captureOutput = true ∧ tablePage.size < 2 ^ 32) ∧
    ∃ r s', ((HostFunction.wasi fdWrite).run ⟨true, true, fun _ => none⟩
        [.i32 1, .i32 0, .i32 1, .i32 0]).startAt tableStore =
          .done (r.map fun word => [.i32 word], s') ∧
      WriteEnds tableStore tablePage 1 0 1 0 r s' :=
  have small : tablePage.size < 2 ^ 32 := by
    rw [size_tablePage]
    decide
  ⟨⟨rfl, rfl, small⟩,
    write_ends ⟨true, true, fun _ => none⟩ tableStore tablePage rfl rfl small 1 0 1 0⟩

/-- The table is put out as it was before. -/
example : ((HostFunction.wasi fdWrite).run ⟨true, true, fun _ => none⟩
    [.i32 1, .i32 0, .i32 1, .i32 0]).startAt tableStore = .done (.ok [.i32 0], { tableStore with
      memory := some (tablePage.put (tablePage.store 0 [8, 0, 0, 0]))
      host := tableStore.host.capture .stdout [0, 0, 0, 0, 8, 0, 0, 0] }) :=
  rfl

end WasiCall

end GuestHost
