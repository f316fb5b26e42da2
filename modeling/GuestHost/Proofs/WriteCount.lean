import GuestHost.Proofs.SentOutput
import GuestHost.Proofs.Sinks

/-!
The counter of a write. Main statement: a write that answers zero has stored by how many bytes the
output on its stream has grown, whether output is kept or sent.
-/

namespace GuestHost

theorem PlainMemory.length_gathered {bs : PlainMemory} {spans : List Span}
    (fit : bs.beyond? spans = none) : (bs.gathered spans).length = total spans := by
  have lengths : ∀ r ∈ spans, (bs.read r.offset r.length).length = r.length :=
    fun r member => length_read (fits_of_beyond? fit member)
  rw [gathered, List.length_flatMap, total, List.map_congr_left lengths]

theorem Memory.exists_readU32 {m : Memory} {i : Nat} (fits : i + 4 ≤ m.size) :
    ∃ word, m.readU32 i = .ok word ∧ word.toNat = m.plain.number i 4 := by
  refine ⟨m.wordAt i, ?_, toNat_wordAt fits⟩
  rw [readU32, read_of_le fits]
  rfl

theorem Sent.sent_eq {stream : OutputStream} {chunks : List (List UInt8)} {u : Trace}
    (sent : Sent stream chunks true u) : u.sent stream = chunks.flatten := by
  have each (chunk : List UInt8) : (Exchange.offer stream true chunk).sent stream = chunk :=
    if_pos rfl
  cases sent
  simp [Trace.sent, List.flatMap_def, Function.comp_def, each]

def Store.outputLength (s : Store) (t : Trace) (stream : OutputStream) : Nat :=
  (s.host.captured stream).length + (t.sent stream).length

namespace WasiCall

/-- How a write that answered zero has counted: the word that it stored is by how much the output on
its stream has grown, from the store and the exchanges before to those after. -/
inductive Counted (fd nwritten : BitVec 32) (s : Store) (t : Trace) (s' : Store) (u : Trace) : Prop
  | intro {stream : OutputStream} {m : LinearMemory} {word : BitVec 32}
      (known : fd = stream.descriptor) (held : s'.memory = some m)
      (stored : m.readU32 nwritten.toNat = .ok word)
      (grown : s'.outputLength u stream = s.outputLength t stream + word.toNat)

variable {c : Context} {s s' : Store} {m m' : LinearMemory} {fd iovs count nwritten : BitVec 32}
  {stream : OutputStream} {t u : Trace}

theorem Counted.of_total (known : fd = stream.descriptor)
    (fit : m.plain.beyond? (m.plain.named iovs.toNat count.toNat nwritten.toNat) = none)
    (held : s'.memory = some m')
    (stored : m'.plain = m.plain.overwrite nwritten.toNat
      (PlainMemory.digits 4 (PlainMemory.total (m.plain.buffers iovs.toNat count.toNat))))
    (whole : m'.plain.number nwritten.toNat 4 =
      PlainMemory.total (m.plain.buffers iovs.toNat count.toNat))
    (grown : s'.outputLength u stream = s.outputLength t stream +
      (m.plain.gathered (m.plain.buffers iovs.toNat count.toNat)).length) :
    Counted fd nwritten s t s' u := by
  have counter : nwritten.toNat + 4 ≤ m.size :=
    Memory.fits_of_beyond? fit (.tail _ (.head _))
  have size : m'.size = m.size := by
    rw [← Memory.length_plain, stored, PlainMemory.length_overwrite (by simpa using counter),
      Memory.length_plain]
  obtain ⟨word, read, value⟩ := Memory.exists_readU32 (size ▸ counter)
  refine ⟨known, held, read, ?_⟩
  rw [grown, PlainMemory.length_gathered (PlainMemory.beyond?_buffers fit), value, whole]

theorem counted_of_ends {r : Except Stop (BitVec 32)}
    (ends : WriteEnds s m fd iovs.toNat count.toNat nwritten.toNat r s') (success : r = .ok 0)
    (t : Trace) : Counted fd nwritten s t s' t := by
  cases ends with
  | badFile | invalid => exact absurd success (by decide)
  | outOfBounds => cases success
  | @written stream m' known fit room stored whole limit =>
    refine .of_total known fit rfl stored whole ?_
    rw [Store.outputLength, HostState.captured_capture, Output.add, if_pos rfl,
      List.length_append, Store.outputLength, Nat.add_right_comm]

theorem counted_of_send {r : Except Stop (BitVec 32)}
    (small : ∀ m, c.memoryIn s = some m → m.size < 2 ^ 32)
    (ends : SendEnds c s fd iovs.toNat count.toNat nwritten.toNat r s' u) (success : r = .ok 0)
    (t : Trace) : Counted fd nwritten s t s' (t ++ u) := by
  cases ends with
  | badFile | invalid | refused => exact absurd success (by decide)
  | noMemory | longTable | outOfBounds => cases success
  | @written stream m m' u known found short fit room sent stored whole limit =>
    refine .of_total known fit rfl stored (whole (room.trans_lt (small m found))) ?_
    rw [Store.outputLength, Trace.sent_append, Output.append, List.length_append, sent.sent_eq,
      ← List.flatMap_def, Store.outputLength, Nat.add_assoc]
    rfl

theorem run_write_counts (small : ∀ m, c.memoryIn s = some m → m.size < 2 ^ 32)
    (fd iovs count nwritten : BitVec 32) (w : World) (t : Trace) :
    ∃ r s' u, ((write c fd iovs count nwritten).startAt s).run w t = (.value (r, s'), u) ∧
      (r = .ok 0 → Counted fd nwritten s t s' u) := by
  cases keeps : s.host.config.captureOutput with
  | false =>
    obtain ⟨r, s', u, ended, ends⟩ := run_write_ends (c := c) keeps fd iovs count nwritten w t
    exact ⟨r, s', t ++ u, ended, fun success => counted_of_send small ends success t⟩
  | true =>
    by_cases stream : ∃ stream : OutputStream, fd = stream.descriptor
    swap
    · rw [write_of_other (not_exists.mp stream)]
      exact ⟨.ok 8, s, t, rfl, fun success => absurd success (by decide)⟩
    obtain ⟨stream, known⟩ := stream
    cases found : c.memoryIn s with
    | none =>
      rw [startAt_write_of_missing found known]
      exact ⟨_, s, t, rfl, nofun⟩
    | some m =>
      obtain ⟨r, s', ended, ends⟩ :=
        startAt_write_ends found keeps (small m found) fd iovs count nwritten
      rw [ended]
      exact ⟨r, s', t, rfl, fun success => counted_of_ends ends success t⟩

end WasiCall

end GuestHost
