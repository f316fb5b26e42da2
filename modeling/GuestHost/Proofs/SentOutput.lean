import GuestHost.Proofs.GatheredWrite

/-!
Gathered writes to streams that can refuse. Main statement: where output is not kept, nothing is
offered before every check has passed; then the buffers are offered one by one to the one stream of
the descriptor, up to the first that is refused. Only when none is refused does anything change.
-/

namespace GuestHost

open Wasm (Val)

def Exchange.offer (stream : OutputStream) (taken : Bool) (chunk : List UInt8) : Exchange :=
  ⟨.offer stream chunk, taken⟩

/-- What is exchanged with a stream that is offered chunks in order, and whether it took them all. -/
inductive Sent (stream : OutputStream) (chunks : List (List UInt8)) : Bool → Trace → Prop
  | all : Sent stream chunks true (chunks.map (.offer stream true))
  | upTo {before after : List (List UInt8)} {chunk : List UInt8}
      (split : chunks = before ++ chunk :: after) :
    Sent stream chunks false (before.map (.offer stream true) ++ [.offer stream false chunk])

theorem Sent.cons {stream : OutputStream} {chunks : List (List UInt8)} {whole : Bool} {u : Trace}
    (sent : Sent stream chunks whole u) (chunk : List UInt8) :
    Sent stream (chunk :: chunks) whole (.offer stream true chunk :: u) := by
  cases sent with
  | all => exact .all
  | @upTo before after refused split =>
    subst split
    exact @Sent.upTo _ _ (chunk :: before) after refused rfl

/-- How a gathered write ends where output is sent: what it answers, the store that it leaves, and
what is exchanged with the outside. -/
inductive SendEnds (c : Context) (s : Store) (fd : BitVec 32) (iovs count nwritten : Nat) :
    Except Stop (BitVec 32) → Store → Trace → Prop
  | badFile (other : ∀ stream : OutputStream, fd ≠ stream.descriptor) :
    SendEnds c s fd iovs count nwritten (.ok 8) s []
  | noMemory {stream : OutputStream} (known : fd = stream.descriptor)
      (missing : c.memoryIn s = none) :
    SendEnds c s fd iovs count nwritten (.error (.host .noMemory)) s []
  | longTable {stream : OutputStream} {m : LinearMemory} (known : fd = stream.descriptor)
      (found : c.memoryIn s = some m) (fits : iovs + 8 * count ≤ m.size)
      (long : 2 ^ 32 ≤ 8 * count) :
    SendEnds c s fd iovs count nwritten
      (.error (.host (.outOfBounds iovs (8 * count) m.size))) s []
  | outOfBounds {stream : OutputStream} {m : LinearMemory} {r : Span}
      (known : fd = stream.descriptor) (found : c.memoryIn s = some m)
      (short : iovs + 8 * count ≤ m.size → 8 * count < 2 ^ 32)
      (first : m.plain.beyond? (m.plain.named iovs count nwritten) = some r) :
    SendEnds c s fd iovs count nwritten
      (.error (.host (.outOfBounds r.offset r.length m.size))) s []
  | invalid {stream : OutputStream} {m : LinearMemory} (known : fd = stream.descriptor)
      (found : c.memoryIn s = some m) (short : 8 * count < 2 ^ 32)
      (fit : m.plain.beyond? (m.plain.named iovs count nwritten) = none)
      (much : m.size < PlainMemory.total (m.plain.buffers iovs count)) :
    SendEnds c s fd iovs count nwritten (.ok 28) s []
  | refused {stream : OutputStream} {m : LinearMemory} {u : Trace} (known : fd = stream.descriptor)
      (found : c.memoryIn s = some m) (short : 8 * count < 2 ^ 32)
      (fit : m.plain.beyond? (m.plain.named iovs count nwritten) = none)
      (room : PlainMemory.total (m.plain.buffers iovs count) ≤ m.size)
      (sent : Sent stream ((m.plain.buffers iovs count).map fun r =>
        m.plain.read r.offset r.length) false u) :
    SendEnds c s fd iovs count nwritten (.ok 29) s u
  | written {stream : OutputStream} {m m' : LinearMemory} {u : Trace}
      (known : fd = stream.descriptor) (found : c.memoryIn s = some m)
      (short : 8 * count < 2 ^ 32)
      (fit : m.plain.beyond? (m.plain.named iovs count nwritten) = none)
      (room : PlainMemory.total (m.plain.buffers iovs count) ≤ m.size)
      (sent : Sent stream ((m.plain.buffers iovs count).map fun r =>
        m.plain.read r.offset r.length) true u)
      (stored : m'.plain = m.plain.overwrite nwritten
        (PlainMemory.digits 4 (PlainMemory.total (m.plain.buffers iovs count))))
      (exact : PlainMemory.total (m.plain.buffers iovs count) < 2 ^ 32 →
        m'.plain.number nwritten 4 = PlainMemory.total (m.plain.buffers iovs count))
      (limit : m'.limit = m.limit) :
    SendEnds c s fd iovs count nwritten (.ok 0) { s with memory := some m' } u

namespace WasiCall

theorem startAt_sendAll_cons (stream : OutputStream) (chunk : List UInt8)
    (chunks : List (List UInt8)) (s : Store) :
    (sendAll stream (chunk :: chunks)).startAt s = .ask (.offer stream chunk) fun taken =>
      (if taken then sendAll stream chunks else pure false).startAt s := by
  rw [sendAll, Run.startAt_bind, Run.startAt_ask]
  rfl

theorem run_sendAll (stream : OutputStream) (chunks : List (List UInt8)) (s : Store) (w : World)
    (t : Trace) :
    ∃ whole u, ((sendAll stream chunks).startAt s).run w t = (.value (.ok whole, s), t ++ u) ∧
      Sent stream chunks whole u := by
  induction chunks generalizing t with
  | nil => exact ⟨true, [], by simp [sendAll, Action.run], .all⟩
  | cons chunk chunks ih =>
    rw [startAt_sendAll_cons, Action.run]
    cases w t (.offer stream chunk) with
    | true =>
      obtain ⟨whole, u, ended, sent⟩ := ih (t ++ [.offer stream true chunk])
      rw [← List.append_cons] at ended
      exact ⟨whole, .offer stream true chunk :: u, ended, sent.cons chunk⟩
    | false => exact ⟨false, [.offer stream false chunk], rfl, .upTo (List.nil_append _).symm⟩

theorem run_send {m : LinearMemory} {nwritten : Nat} (fits : nwritten + 4 ≤ m.size)
    (stream : OutputStream) (chunks : List (List UInt8)) (n : Nat) {s : Store}
    (sends : s.host.config.captureOutput = false) (w : World) (t : Trace) :
    ∃ whole u, (Run.startAt (do
        if ← deliver stream chunks then
          let m ← Run.ofExcept (m.edit (·.writeU32 nwritten (BitVec.ofNat 32 n)))
          Run.setMemory m
          return Errno.success
        else return Errno.io) s).run w t =
      (.value (if whole then (.ok 0, { s with
          memory := some (m.put (m.store nwritten (Word.bytes (BitVec.ofNat 32 n) 4))) })
        else (.ok 29, s)), t ++ u) ∧ Sent stream chunks whole u := by
  obtain ⟨whole, u, ended, sent⟩ := run_sendAll stream chunks s w t
  refine ⟨whole, u, ?_, sent⟩
  rw [Run.startAt_bind, startAt_deliver, sends, if_neg (by decide), Action.run_bind, ended]
  cases whole with
  | false => rfl
  | true =>
    dsimp only
    rw [if_pos rfl, startAt_count m nwritten _ fits]
    rfl

theorem run_write_ends {c : Context} {s : Store} (sends : s.host.config.captureOutput = false)
    (fd iovs count nwritten : BitVec 32) (w : World) (t : Trace) :
    ∃ r s' u, ((write c fd iovs count nwritten).startAt s).run w t = (.value (r, s'), t ++ u) ∧
      SendEnds c s fd iovs.toNat count.toNat nwritten.toNat r s' u := by
  by_cases stream : ∃ stream : OutputStream, fd = stream.descriptor
  swap
  · have other := not_exists.mp stream
    rw [write_of_other other]
    exact ⟨.ok 8, s, [], by simp [Action.run], .badFile other⟩
  obtain ⟨stream, known⟩ := stream
  cases found : c.memoryIn s with
  | none =>
    refine ⟨.error (.host .noMemory), s, [], ?_, .noMemory known found⟩
    rw [startAt_write_of_missing found known, List.append_nil]
    rfl
  | some m =>
    -- A table can fit and yet have a length that is no word, if memory is as large as can be.
    by_cases long : iovs.toNat + 8 * count.toNat ≤ m.size ∧ 2 ^ 32 ≤ 8 * count.toNat
    · refine ⟨_, s, [], ?_, .longTable known found long.1 long.2⟩
      rw [startAt_write_of_long found known long.1 long.2, List.append_nil]
      rfl
    have short : iovs.toNat + 8 * count.toNat ≤ m.size → 8 * count.toNat < 2 ^ 32 :=
      fun fits => Nat.lt_of_not_le fun beyond => long ⟨fits, beyond⟩
    cases first : m.plain.beyond? (m.plain.named iovs.toNat count.toNat nwritten.toNat) with
    | some r =>
      refine ⟨_, s, [], ?_, .outOfBounds known found short first⟩
      rw [startAt_write_of_beyond found known short first, List.append_nil]
      rfl
    | none =>
      have fits {r : Span} (member : r ∈ m.plain.named iovs.toNat count.toNat nwritten.toNat) :=
        Memory.fits_of_beyond? first member
      have counter : nwritten.toNat + 4 ≤ m.size := fits (.tail _ (.head _))
      replace short := short (fits (.head _))
      rw [startAt_write_of_fit found known short first]
      split
      · rename_i much
        refine ⟨_, s, [], ?_, .invalid known found short first much⟩
        rw [List.append_nil]
        rfl
      · rename_i room
        replace room := Nat.le_of_not_lt room
        obtain ⟨whole, u, ended, sent⟩ := run_send counter stream _ _ sends w t
        cases whole with
        | false => exact ⟨_, _, u, ended, .refused known found short first room sent⟩
        | true =>
          exact ⟨_, _, u, ended, .written known found short first room sent
            (Memory.plain_count counter _) (Memory.number_count counter) (m.limit_put _)⟩

/-- A write is called where output is not kept, from any store and with any words, in any world. Bad
descriptors, a memory that is not there, ranges beyond its size and sums beyond it are told before
anything is offered. Otherwise the stream of the descriptor is offered what the buffers hold, one by
one, and nothing else is exchanged. Once it refuses a chunk the answer is 29, no other is offered and
the store is as it was; when it takes them all the answer is zero and the sum of the lengths is
stored, in full if it fits in a word. -/
theorem send_ends (c : Context) (s : Store) (sends : s.host.config.captureOutput = false)
    (fd iovs count nwritten : BitVec 32) (w : World) (t : Trace) :
    ∃ r s' u, (((HostFunction.wasi fdWrite).run c
        [.i32 fd, .i32 iovs, .i32 count, .i32 nwritten]).startAt s).run w t =
          (.value (r.map fun word => [.i32 word], s'), t ++ u) ∧
      SendEnds c s fd iovs.toNat count.toNat nwritten.toNat r s' u := by
  obtain ⟨r, s', u, ended, ends⟩ := run_write_ends (c := c) sends fd iovs count nwritten w t
  refine ⟨r, s', u, ?_, ends⟩
  have run_eq : (HostFunction.wasi fdWrite).run c
      [.i32 fd, .i32 iovs, .i32 count, .i32 nwritten] =
        answer (write c fd iovs count nwritten) := rfl
  rw [run_eq, answer, Run.startAt_bind, Action.run_bind, ended]
  cases r <;> rfl

def wordsPage : LinearMemory :=
  (LinearMemory.new 1 none).put ((Memory.zeros pageSize).store 0
    [4, 0, 0, 0, 4, 0, 0, 0, 12, 0, 0, 0, 2, 0, 0, 0])

def wordsStore : Store where
  memory := some wordsPage
  host := { config := {}, origin := 0 }

/-- Streams that refuse chunks of two bytes. -/
def fussyWorld : World :=
  { Surroundings.still with takes := fun _ _ chunk => chunk.length ≠ 2 : Surroundings }.world

theorem send_ends_refused :
    wordsStore.host.config.captureOutput = false ∧
    ∃ r s' u, (((HostFunction.wasi fdWrite).run ⟨true, true, fun _ => none⟩
        [.i32 2, .i32 0, .i32 2, .i32 16]).startAt wordsStore).run fussyWorld [] =
          (.value (r.map fun word => [.i32 word], s'), [] ++ u) ∧
      SendEnds ⟨true, true, fun _ => none⟩ wordsStore 2 0 2 16 r s' u :=
  ⟨rfl, send_ends ⟨true, true, fun _ => none⟩ wordsStore rfl 2 0 2 16 fussyWorld []⟩

example : (((HostFunction.wasi fdWrite).run ⟨true, true, fun _ => none⟩
    [.i32 2, .i32 0, .i32 2, .i32 16]).startAt wordsStore).run fussyWorld [] =
      (.value (.ok [.i32 29], wordsStore),
        [.offer .stderr true [4, 0, 0, 0], .offer .stderr false [2, 0]]) :=
  rfl

end WasiCall

end GuestHost
