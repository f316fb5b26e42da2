import GuestHost.Proofs.GatheredWrite

/-!
Tables of buffers. Main statement: a table that ends within the size is decoded in full, pair by
pair, and one that does not is refused; a table that is written where it fits is read back.
-/

namespace GuestHost

/-! Numbers and their digits, the other way round -/

namespace PlainMemory

variable {bs : PlainMemory} {offset length : Nat}

theorem digits_ofDigits (bytes : List UInt8) :
    digits bytes.length (Nat.ofDigits 256 (bytes.map (·.toNat))) = bytes := by
  induction bytes with
  | nil => rfl
  | cons b bytes ih =>
    have lowest (n : Nat) : UInt8.ofNat (b.toNat + 256 * n) = b := by
      apply UInt8.toNat_inj.mp
      have small := b.toNat_lt
      simp only [UInt8.toNat_ofNat']
      omega
    have rest (n : Nat) : (b.toNat + 256 * n) / 256 = n := by
      have small := b.toNat_lt
      omega
    rw [List.length_cons, List.map_cons, Nat.ofDigits_cons, digits_succ, lowest, rest, ih]

theorem digits_number (fits : offset + length ≤ bs.length) :
    digits length (bs.number offset length) = bs.read offset length := by
  have made := digits_ofDigits (bs.read offset length)
  rwa [length_read fits] at made

theorem read_add (bs : PlainMemory) (offset first second : Nat) :
    bs.read offset (first + second) = bs.read offset first ++ bs.read (offset + first) second := by
  rw [read, read, read, List.take_add, List.drop_drop]

theorem flatMap_digits_buffers {iovs count : Nat} (fits : iovs + 8 * count ≤ bs.length) :
    (bs.buffers iovs count).flatMap (fun r => digits 4 r.offset ++ digits 4 r.length) =
      bs.read iovs (8 * count) := by
  induction count with
  | zero => simp [buffers, read]
  | succ count ih =>
    have last : bs.buffers iovs (count + 1) = bs.buffers iovs count ++
        [⟨bs.number (iovs + 8 * count) 4, bs.number (iovs + 8 * count + 4) 4⟩] := by
      simp [buffers, List.range_succ]
    have pair : bs.read (iovs + 8 * count) 8 =
        bs.read (iovs + 8 * count) 4 ++ bs.read (iovs + 8 * count + 4) 4 := bs.read_add _ 4 4
    rw [last, List.flatMap_append, ih (by omega), List.flatMap_singleton,
      digits_number (by omega), digits_number (by omega), ← pair, ← read_add]
    rfl

end PlainMemory

/-! Tables -/

/-- How the reading of a table ends. -/
inductive TableRead (m : Memory) (iovs count : Nat) : Except HostError (List Iovec) → Prop
  /-- The pairs are those of the table, and all of its bytes are in them. -/
  | decoded {vs : List Iovec} (fits : iovs + 8 * count ≤ m.size) (length : vs.length = count)
      (pairs : vs.map Iovec.span = m.plain.buffers iovs count)
      (whole : vs.flatMap Iovec.encode = m.plain.read iovs (8 * count)) :
    TableRead m iovs count (.ok vs)
  | refused (beyond : m.size < iovs + 8 * count) :
    TableRead m iovs count (.error (.outOfBounds iovs (8 * count) m.size))

namespace Iovec

variable {m : Memory} {iovs count : Nat}

theorem readAll_of_le (fits : iovs + 8 * count ≤ m.size) (small : m.size < 2 ^ 32) :
    readAll m iovs count = .ok (decode (m.plain.read iovs (8 * count))) := by
  have short : ¬ Nat.pow 2 32 ≤ 8 * count := by
    have bound : Nat.pow 2 32 = 2 ^ 32 := rfl
    omega
  rw [readAll, checkBounds_of_le fits, Memory.read_of_le fits, ← Memory.slice_eq_read fits]
  simp only [bind, Except.bind, if_neg short]
  rfl

theorem readAll_of_lt (beyond : m.size < iovs + 8 * count) :
    readAll m iovs count = .error (.outOfBounds iovs (8 * count) m.size) := by
  rw [readAll, checkBounds_of_lt beyond]
  rfl

theorem encode_eq_digits (v : Iovec) :
    v.encode = PlainMemory.digits 4 v.span.offset ++ PlainMemory.digits 4 v.span.length := by
  rw [encode, Word.bytes_eq_digits, Word.bytes_eq_digits]
  rfl

@[simp] theorem length_encode (v : Iovec) : v.encode.length = 8 := by simp [encode]

theorem length_flatMap_encode (vs : List Iovec) : (vs.flatMap encode).length = 8 * vs.length := by
  simp [List.length_flatMap, Nat.mul_comm]

/-- A pair is decoded from the first eight bytes, whatever comes behind them. -/
theorem decode_encode_append (v : Iovec) (rest : List UInt8) :
    decode (v.encode ++ rest) = v :: decode rest := by
  have read : decode (v.encode ++ rest) =
    ⟨Word.ofBytes 32 (Word.bytes v.base 4), Word.ofBytes 32 (Word.bytes v.length 4)⟩ ::
      decode rest := rfl
  rw [read, Word.ofBytes_bytes _ (by decide), Word.ofBytes_bytes _ (by decide)]

theorem decode_flatMap_encode (vs : List Iovec) : decode (vs.flatMap encode) = vs := by
  induction vs with
  | nil => rfl
  | cons v vs ih => rw [List.flatMap_cons, decode_encode_append, ih]

theorem flatMap_encode_decode (fits : iovs + 8 * count ≤ m.size) :
    (decode (m.plain.read iovs (8 * count))).flatMap encode = m.plain.read iovs (8 * count) := by
  have pairs := Memory.map_span_decode fits
  have inside : iovs + 8 * count ≤ m.plain.length := by rwa [Memory.length_plain]
  have whole := PlainMemory.flatMap_digits_buffers inside
  have encoded : encode = fun v => PlainMemory.digits 4 v.span.offset ++
    PlainMemory.digits 4 v.span.length := funext encode_eq_digits
  rw [← pairs, List.flatMap_map, Memory.slice_eq_read fits] at whole
  rwa [encoded]

theorem readAll_ends (small : m.size < 2 ^ 32) (iovs count : Nat) :
    TableRead m iovs count (readAll m iovs count) := by
  by_cases fits : iovs + 8 * count ≤ m.size
  · have pairs := Memory.map_span_decode fits
    rw [Memory.slice_eq_read fits] at pairs
    have length := congrArg List.length pairs
    simp only [List.length_map, PlainMemory.buffers, List.length_range] at length
    rw [readAll_of_le fits small]
    exact .decoded fits length pairs (flatMap_encode_decode fits)
  · have beyond := Nat.lt_of_not_le fits
    rw [readAll_of_lt beyond]
    exact .refused beyond

def storeAll (m : Memory) (offset : Nat) : List Iovec → Except HostError Memory
  | [] => .ok m
  | v :: vs => do
    let m ← m.write offset v.encode
    storeAll m (offset + 8) vs

theorem exists_storeAll {offset : Nat} {vs : List Iovec} (fits : offset + 8 * vs.length ≤ m.size) :
    ∃ m', storeAll m offset vs = .ok m' ∧
      m'.plain = m.plain.overwrite offset (vs.flatMap encode) := by
  induction vs generalizing m offset with
  | nil => exact ⟨m, rfl, by simp [PlainMemory.overwrite]⟩
  | cons v vs ih =>
    rw [List.length_cons] at fits
    have first : offset + v.encode.length ≤ m.size := by
      rw [length_encode]
      omega
    have rest : offset + 8 + 8 * vs.length ≤ (m.store offset v.encode).size := by
      rw [Memory.size_store]
      omega
    obtain ⟨m', stored, plain⟩ := ih rest
    refine ⟨m', ?_, ?_⟩
    · rw [storeAll, Memory.write_of_le first]
      exact stored
    · have room : offset + (v.encode ++ vs.flatMap encode).length ≤ m.plain.length := by
        rw [List.length_append, length_encode, length_flatMap_encode, Memory.length_plain]
        omega
      rw [plain, Memory.plain_store first, List.flatMap_cons,
        PlainMemory.overwrite_append _ _ _ _ room, length_encode]

/-- A table is read of a memory that 32-bit addresses go beyond, at any offset and of any length. If
it ends within the size, its pairs are decoded in their order, and they hold all of its bytes;
otherwise it is refused for its range. A table that is written where it fits, pair by pair, is read
back. -/
theorem readAll_decodes (m : Memory) (small : m.size < 2 ^ 32) :
    (∀ iovs count, TableRead m iovs count (readAll m iovs count)) ∧
      ∀ (vs : List Iovec) (offset : Nat), offset + 8 * vs.length ≤ m.size →
        ∃ m', storeAll m offset vs = .ok m' ∧ readAll m' offset vs.length = .ok vs := by
  refine ⟨readAll_ends small, fun vs offset fits => ?_⟩
  obtain ⟨m', stored, plain⟩ := exists_storeAll fits
  have length := length_flatMap_encode vs
  have room : offset + (vs.flatMap encode).length ≤ m.plain.length := by
    rwa [length, Memory.length_plain]
  have size : m'.size = m.size := by
    rw [← Memory.length_plain, plain, PlainMemory.length_overwrite room, Memory.length_plain]
  have there : m'.plain.read offset (8 * vs.length) = vs.flatMap encode := by
    rw [plain, ← length]
    exact PlainMemory.read_overwrite room
  refine ⟨m', stored, ?_⟩
  rw [readAll_of_le (by rwa [size]) (by rwa [size]), there, decode_flatMap_encode]

theorem readAll_decodes_brim :
    let m := Memory.zeros 20
    let vs : List Iovec := [⟨8, 4⟩, ⟨0xffffffff, 0x80000000⟩]
    m.size < 2 ^ 32 ∧ TableRead m 4 2 (readAll m 4 2) ∧ TableRead m 5 2 (readAll m 5 2) ∧
      ∃ m', storeAll m 4 vs = .ok m' ∧ readAll m' 4 2 = .ok vs := by
  intro m vs
  have small : m.size < 2 ^ 32 := by decide
  have decodes := readAll_decodes m small
  exact ⟨small, decodes.1 4 2, decodes.1 5 2, decodes.2 vs 4 (by decide)⟩

end Iovec

end GuestHost
