import GuestHost.Proofs.BufferTables

/-!
Memory accessed with machine words. A sum, difference or product of words comes to nothing where
it does not fit, and so does a look at a range or an index that is not there. Main statement: an
access to a memory that 32-bit addresses go beyond never comes to nothing, and ends as on unbounded
numbers.
-/

namespace GuestHost

/-! Arithmetic that comes to nothing where the result does not fit -/

namespace Word

variable {k : Nat}

def add? (a b : BitVec k) : Option (BitVec k) := if a.uaddOverflow b then none else some (a + b)

def sub? (a b : BitVec k) : Option (BitVec k) := if a.usubOverflow b then none else some (a - b)

def mul? (a b : BitVec k) : Option (BitVec k) := if a.umulOverflow b then none else some (a * b)

def ceilDiv? (a b : BitVec k) : Option (BitVec k) :=
  if b = 0 then none
  else if a % b = 0 then some (a / b)
  else add? (a / b) 1

def narrow? (j : Nat) (a : BitVec k) : Option (BitVec j) :=
  if a.toNat < 2 ^ j then some (a.setWidth j) else none

def widen (a : BitVec 32) : BitVec 64 := a.setWidth 64

@[simp] theorem toNat_widen (a : BitVec 32) : (widen a).toNat = a.toNat :=
  BitVec.toNat_setWidth_of_le (by decide)

theorem toNat_widen_mul_eight (a : BitVec 32) : (widen a * 8).toNat = 8 * a.toNat := by
  have eight : (8 : BitVec 64).toNat = 8 := rfl
  rw [BitVec.toNat_mul, toNat_widen, eight]
  omega

theorem exists_toNat_eq {n : Nat} (fits : n < 2 ^ k) : ∃ a : BitVec k, a.toNat = n :=
  ⟨BitVec.ofNat k n, by rw [BitVec.toNat_ofNat, Nat.mod_eq_of_lt fits]⟩

theorem add?_eq_some_iff {a b c : BitVec k} :
    add? a b = some c ↔ c.toNat = a.toNat + b.toNat := by
  unfold add?
  split
  · rename_i beyond
    have bound := c.isLt
    simp only [BitVec.uaddOverflow, ge_iff_le, decide_eq_true_eq] at beyond
    exact iff_of_false nofun (by omega)
  · rename_i fits
    rw [Option.some_inj, ← BitVec.toNat_inj, BitVec.toNat_add_of_not_uaddOverflow fits]
    exact eq_comm

theorem sub?_eq_some_iff {a b c : BitVec k} :
    sub? a b = some c ↔ c.toNat + b.toNat = a.toNat := by
  unfold sub?
  split
  · rename_i under
    simp only [BitVec.usubOverflow, decide_eq_true_eq] at under
    exact iff_of_false nofun (by omega)
  · rename_i fits
    rw [Option.some_inj, ← BitVec.toNat_inj, BitVec.toNat_sub_of_not_usubOverflow fits]
    simp only [BitVec.usubOverflow, decide_eq_true_eq] at fits
    omega

theorem mul?_eq_some_iff {a b c : BitVec k} :
    mul? a b = some c ↔ c.toNat = a.toNat * b.toNat := by
  unfold mul?
  split
  · rename_i beyond
    have bound := c.isLt
    simp only [BitVec.umulOverflow, ge_iff_le, decide_eq_true_eq] at beyond
    exact iff_of_false nofun (by omega)
  · rename_i fits
    rw [Option.some_inj, ← BitVec.toNat_inj, BitVec.toNat_mul_of_not_umulOverflow fits]
    exact eq_comm

theorem exists_ceilDiv? (a b : BitVec k) (positive : 0 < b.toNat) :
    ∃ c, ceilDiv? a b = some c ∧ c.toNat = (a.toNat + b.toNat - 1) / b.toNat := by
  have nonzero : b ≠ 0 := by
    rintro rfl
    simp at positive
  have division := Nat.div_add_mod a.toNat b.toNat
  have low := Nat.mod_lt a.toNat positive
  rw [ceilDiv?, if_neg nonzero]
  split
  · rename_i even
    have none : a.toNat % b.toNat = 0 := by rw [← BitVec.toNat_umod, even]; rfl
    have sum : a.toNat + b.toNat - 1 = b.toNat * (a.toNat / b.toNat) + (b.toNat - 1) := by omega
    refine ⟨_, rfl, ?_⟩
    rw [BitVec.toNat_udiv, sum, Nat.mul_add_div positive,
      Nat.div_eq_of_lt (Nat.sub_lt positive Nat.one_pos), Nat.add_zero]
  · rename_i odd
    have some : a.toNat % b.toNat ≠ 0 := by
      rw [← BitVec.toNat_umod]
      exact fun zero => odd (BitVec.eq_of_toNat_eq zero)
    have sum : a.toNat + b.toNat - 1 =
      b.toNat * (a.toNat / b.toNat + 1) + (a.toNat % b.toNat - 1) := by
      rw [Nat.mul_add]
      omega
    have room : a.toNat / b.toNat + 1 < 2 ^ k := by
      have width := a.isLt
      have two : 2 ≤ b.toNat := by omega
      have half : a.toNat / b.toNat ≤ a.toNat / 2 := Nat.div_le_div_left two (by decide)
      omega
    obtain ⟨c, value⟩ := exists_toNat_eq room
    have one : (1 : BitVec k).toNat = 1 := by
      have width : 1 < 2 ^ k := by omega
      simpa using Nat.mod_eq_of_lt width
    refine ⟨c, ?_, ?_⟩
    · rw [add?_eq_some_iff, BitVec.toNat_udiv, value, one]
    · have rest : (a.toNat % b.toNat - 1) / b.toNat = 0 :=
        Nat.div_eq_of_lt ((Nat.sub_le ..).trans_lt low)
      rw [value, sum, Nat.mul_add_div positive, rest, Nat.add_zero]

theorem narrow?_eq_some_iff {j : Nat} {a : BitVec k} {c : BitVec j} :
    narrow? j a = some c ↔ c.toNat = a.toNat := by
  unfold narrow?
  split
  · rename_i fits
    rw [Option.some_inj, ← BitVec.toNat_inj, BitVec.toNat_setWidth, Nat.mod_eq_of_lt fits]
    exact eq_comm
  · rename_i beyond
    have bound := c.isLt
    exact iff_of_false nofun (by omega)

end Word

/-! Parts of slices and of tables -/

theorem Memory.slice_slice {m : Memory} {offset length i n : Nat} (inside : i + n ≤ length) :
    ((m.slice offset length).drop i).take n = m.slice (offset + i) n := by
  apply List.ext_getElem?
  intro j
  rw [List.getElem?_take, List.getElem?_drop, getElem?_slice, getElem?_slice]
  grind

namespace Iovec

theorem total_cons (v : Iovec) (vs : List Iovec) :
    total (v :: vs) = v.length.toNat + total vs := rfl

theorem total_le (vs : List Iovec) : total vs ≤ 2 ^ 32 * vs.length := by
  induction vs with
  | nil => exact Nat.zero_le _
  | cons v vs ih =>
    have bound := v.length.isLt
    rw [total_cons, List.length_cons]
    omega

theorem length_of_readAll {m : Memory} {iovs count : Nat} {vs : List Iovec}
    (read : readAll m iovs count = .ok vs) : vs.length = count := by
  rw [WasiCall.eq_decode_of_readAll read, WasiCall.decode_slice]
  simp

theorem fits_of_check {m : Memory} {vs : List Iovec} (checked : vs.forM (check m) = .ok ()) :
    ∀ v ∈ vs, v.base.toNat + v.length.toNat ≤ m.size := by
  rw [forM_check] at checked
  cases first : m.plain.beyond? (vs.map span) with
  | some r => simp [first] at checked
  | none => exact fun v member => Memory.fits_of_beyond? first (List.mem_map_of_mem member)

end Iovec

theorem HostError.exists_of_bind_eq_ok {α β : Type} {x : Except HostError α}
    {f : α → Except HostError β} {b : β} (ended : x >>= f = .ok b) :
    ∃ a, x = .ok a ∧ f a = .ok b := by
  cases x with
  | error e => cases ended
  | ok a => exact ⟨a, rfl, ended⟩

theorem WasiCall.gather_eq_ok {m : Memory} {iovs count nwritten : Nat} {vs : List Iovec}
    (gathered : gather m iovs count nwritten = .ok vs) :
    vs.length = count ∧ ∀ v ∈ vs, v.base.toNat + v.length.toNat ≤ m.size := by
  obtain ⟨table, read, rest⟩ := HostError.exists_of_bind_eq_ok gathered
  obtain ⟨_, -, rest⟩ := HostError.exists_of_bind_eq_ok rest
  obtain ⟨_, each, same⟩ := HostError.exists_of_bind_eq_ok rest
  cases same
  exact ⟨Iovec.length_of_readAll read, Iovec.fits_of_check each⟩

/-- A range of cells, from `start` up to `stop`. Cells are counted with words of 64 bits. -/
structure WordRange where
  start : BitVec 64
  stop : BitVec 64
  deriving DecidableEq, Repr

/-- What an access gives, unless it is refused. It gives nothing where an operation on words or a
look at a range or an index came to nothing. -/
abbrev Checked (α : Type) : Type := OptionT (Except HostError) α

namespace OnWords

open Word

def checkBounds (offset length size : BitVec 64) : Except HostError WordRange :=
  match add? offset length with
  | none => .error (.outOfBounds offset.toNat length.toNat size.toNat)
  | some stop =>
    if size < stop then .error (.outOfBounds offset.toNat length.toNat size.toNat)
    else .ok ⟨offset, stop⟩

def size (m : Memory) : BitVec 64 := BitVec.ofNat 64 m.size

def slice? (m : Memory) (r : WordRange) : Option (List UInt8) :=
  if r.start ≤ r.stop ∧ r.stop.toNat ≤ m.size then
    some (m.slice r.start.toNat (r.stop.toNat - r.start.toNat))
  else none

def overwrite? (m : Memory) (r : WordRange) (bytes : List UInt8) : Option Memory :=
  if r.stop.toNat ≤ m.size ∧ r.stop.toNat = r.start.toNat + bytes.length then
    some (m.store r.start.toNat bytes)
  else none

def read (m : Memory) (offset length : BitVec 32) : Checked (List UInt8) := do
  let r ← checkBounds (widen offset) (widen length) (size m)
  (slice? m r).getM

def write (m : Memory) (offset : BitVec 32) (bytes : List UInt8) : Checked Memory := do
  let r ← checkBounds (widen offset) (BitVec.ofNat 64 bytes.length) (size m)
  (overwrite? m r bytes).getM

def wordAt? (bytes : List UInt8) (i : Nat) : Option (BitVec 32) := do
  return ofBytes 32 [← bytes[i]?, ← bytes[i + 1]?, ← bytes[i + 2]?, ← bytes[i + 3]?]

def readU32 (m : Memory) (offset : BitVec 32) : Checked (BitVec 32) := do
  let bytes ← read m offset 4
  (wordAt? bytes 0).getM

def writeU32 (m : Memory) (offset word : BitVec 32) : Checked Memory :=
  write m offset (bytes word 4)

def writeU64 (m : Memory) (offset : BitVec 32) (word : BitVec 64) : Checked Memory :=
  write m offset (bytes word 8)

def copyWithin (m : Memory) (dest src length : BitVec 32) : Checked Memory := do
  let _ ← checkBounds (widen dest) (widen length) (size m)
  let bytes ← read m src length
  write m dest bytes

def chunks (n : Nat) (bytes : List UInt8) : List (List UInt8) :=
  (List.range (bytes.length / n)).map fun i => (bytes.drop (n * i)).take n

def iovec? (chunk : List UInt8) : Option Iovec := do
  return ⟨← wordAt? chunk 0, ← wordAt? chunk 4⟩

def readAll (m : Memory) (iovs count : BitVec 32) : Checked (List Iovec) := do
  let length ← (mul? (widen count) 8).getM
  let _ ← checkBounds (widen iovs) length (size m)
  let length ← (narrow? 32 length).getM
  let table ← read m iovs length
  ((chunks 8 table).mapM iovec?).getM

def addLength (m : Memory) (total : BitVec 64) (v : Iovec) : Checked (BitVec 64) := do
  let _ ← checkBounds (widen v.base) (widen v.length) (size m)
  (add? total (widen v.length)).getM

def total (vs : List Iovec) : BitVec 64 := vs.foldl (fun sum v => sum + widen v.length) 0

def gather (m : Memory) (iovs count nwritten : BitVec 32) : Checked (List Iovec × BitVec 64) := do
  let vs ← readAll m iovs count
  let _ ← checkBounds (widen nwritten) 4 (size m)
  let total ← vs.foldlM (addLength m) 0
  return (vs, total)

/-! Ranges -/

section

variable {m : Memory} {offset length size : BitVec 64}

theorem checkBounds_of_le (fits : offset.toNat + length.toNat ≤ size.toNat) :
    ∃ r, checkBounds offset length size = .ok r ∧ r.start.toNat = offset.toNat ∧
      r.stop.toNat = offset.toNat + length.toNat := by
  obtain ⟨stop, value⟩ := exists_toNat_eq (fits.trans_lt size.isLt)
  refine ⟨⟨offset, stop⟩, ?_, rfl, value⟩
  have inside : ¬ size < stop := by
    rw [BitVec.lt_def, value]
    exact Nat.not_lt.mpr fits
  rw [checkBounds, add?_eq_some_iff.mpr value]
  exact if_neg inside

theorem checkBounds_of_lt (beyond : size.toNat < offset.toNat + length.toNat) :
    checkBounds offset length size =
      .error (.outOfBounds offset.toNat length.toNat size.toNat) := by
  unfold checkBounds
  split
  · rfl
  · rename_i stop sum
    rw [add?_eq_some_iff] at sum
    have outside : size < stop := by rwa [BitVec.lt_def, sum]
    rw [if_pos outside]

theorem checkBounds_range {r : WordRange} (given : checkBounds offset length size = .ok r) :
    r.start ≤ r.stop ∧ r.stop ≤ size := by
  by_cases fits : offset.toNat + length.toNat ≤ size.toNat
  · obtain ⟨r', checked, start, stop⟩ := checkBounds_of_le fits
    rw [checked] at given
    cases given
    rw [BitVec.le_def, BitVec.le_def]
    omega
  · rw [checkBounds_of_lt (Nat.lt_of_not_le fits)] at given
    cases given

end

/-! Accesses -/

variable {α β : Type}

theorem ok_bind (a : α) (f : α → Checked β) :
    (liftM (Except.ok a : Except HostError α) >>= f) = f a := rfl

theorem error_bind (e : HostError) (f : α → Checked β) :
    (liftM (Except.error e : Except HostError α) >>= f) =
      liftM (Except.error e : Except HostError β) := rfl

theorem bind_eq_liftM {x : Except HostError α} {f : α → Checked β} {g : α → Except HostError β}
    (same : ∀ a, x = .ok a → f a = liftM (g a)) : (liftM x >>= f) = liftM (x >>= g) := by
  cases x with
  | error e => rfl
  | ok a => exact same a rfl

section

variable {m : Memory}

theorem toNat_size (small : m.size < 2 ^ 32) : (size m).toNat = m.size := by
  rw [size, BitVec.toNat_ofNat]
  omega

theorem checked_of_le (small : m.size < 2 ^ 32) (offset length : BitVec 64)
    (fits : offset.toNat + length.toNat ≤ m.size) :
    ∃ r, checkBounds offset length (size m) = .ok r ∧ r.start.toNat = offset.toNat ∧
      r.stop.toNat = offset.toNat + length.toNat :=
  checkBounds_of_le (by rwa [toNat_size small])

theorem checked_of_lt (small : m.size < 2 ^ 32) {offset length : BitVec 64}
    (beyond : m.size < offset.toNat + length.toNat) :
    checkBounds offset length (size m) =
      .error (.outOfBounds offset.toNat length.toNat m.size) := by
  rw [checkBounds_of_lt (by rwa [toNat_size small]), toNat_size small]

theorem slice?_of_le {r : WordRange} {offset length : Nat} (fits : offset + length ≤ m.size)
    (start : r.start.toNat = offset) (stop : r.stop.toNat = offset + length) :
    slice? m r = some (m.slice offset length) := by
  have inside : r.start ≤ r.stop ∧ r.stop.toNat ≤ m.size := by
    rw [BitVec.le_def]
    omega
  rw [slice?, if_pos inside, stop, start, Nat.add_sub_cancel_left]

theorem overwrite?_of_le {r : WordRange} {offset : Nat} {bytes : List UInt8}
    (fits : offset + bytes.length ≤ m.size) (start : r.start.toNat = offset)
    (stop : r.stop.toNat = offset + bytes.length) :
    overwrite? m r bytes = some (m.store offset bytes) := by
  rw [overwrite?, stop, start, if_pos ⟨fits, rfl⟩]

theorem read_eq (small : m.size < 2 ^ 32) (offset length : BitVec 32) :
    read m offset length = liftM (m.read offset.toNat length.toNat) := by
  by_cases fits : offset.toNat + length.toNat ≤ m.size
  · obtain ⟨r, checked, start, stop⟩ :=
      checked_of_le small (widen offset) (widen length) (by simpa using fits)
    simp only [toNat_widen] at start stop
    rw [read, checked, ok_bind, slice?_of_le fits start stop, Memory.read_of_le fits]
    rfl
  · have beyond := Nat.lt_of_not_le fits
    rw [read, checked_of_lt small (by simpa using beyond), Memory.read_of_lt beyond, error_bind]
    simp only [toNat_widen]

theorem write_eq (small : m.size < 2 ^ 32) (offset : BitVec 32) {bytes : List UInt8}
    (counted : bytes.length < 2 ^ 64) :
    write m offset bytes = liftM (m.write offset.toNat bytes) := by
  have length : (BitVec.ofNat 64 bytes.length).toNat = bytes.length := by
    rw [BitVec.toNat_ofNat, Nat.mod_eq_of_lt counted]
  by_cases fits : offset.toNat + bytes.length ≤ m.size
  · obtain ⟨r, checked, start, stop⟩ := checked_of_le small (widen offset)
      (BitVec.ofNat 64 bytes.length) (by rwa [toNat_widen, length])
    rw [toNat_widen] at start
    rw [toNat_widen, length] at stop
    rw [write, checked, ok_bind, overwrite?_of_le fits start stop, Memory.write_of_le fits]
    rfl
  · have beyond := Nat.lt_of_not_le fits
    rw [write, checked_of_lt small (by rwa [toNat_widen, length]), Memory.write_of_lt beyond,
      error_bind, toNat_widen, length]

theorem writeU32_eq (small : m.size < 2 ^ 32) (offset word : BitVec 32) :
    writeU32 m offset word = liftM (m.writeU32 offset.toNat word) :=
  write_eq small offset (by rw [length_bytes]; decide)

theorem writeU64_eq (small : m.size < 2 ^ 32) (offset : BitVec 32) (word : BitVec 64) :
    writeU64 m offset word = liftM (m.writeU64 offset.toNat word) :=
  write_eq small offset (by rw [length_bytes]; decide)

theorem copyWithin_eq (small : m.size < 2 ^ 32) (dest src length : BitVec 32) :
    copyWithin m dest src length =
      liftM (m.copyWithin dest.toNat src.toNat length.toNat) := by
  have copied : (read m src length >>= write m dest) =
      liftM (m.read src.toNat length.toNat >>= m.write dest.toNat) := by
    rw [read_eq small]
    apply bind_eq_liftM
    intro bytes given
    have counted : bytes.length = length.toNat := by
      by_cases fits : src.toNat + length.toNat ≤ m.size
      · rw [Memory.read_of_le fits] at given
        cases given
        exact Memory.length_slice
      · rw [Memory.read_of_lt (Nat.lt_of_not_le fits)] at given
        cases given
    exact write_eq small dest (by omega)
  by_cases room : dest.toNat + length.toNat ≤ m.size
  · obtain ⟨r, checked, -, -⟩ :=
      checked_of_le small (widen dest) (widen length) (by simpa using room)
    rw [copyWithin, checked, ok_bind, copied, Memory.copyWithin,
      GuestHost.checkBounds_of_le room]
    rfl
  · have beyond := Nat.lt_of_not_le room
    rw [copyWithin, checked_of_lt small (by simpa using beyond), error_bind, Memory.copyWithin,
      GuestHost.checkBounds_of_lt beyond]
    simp only [toNat_widen]
    rfl

/-! Words and tables -/

theorem wordAt?_slice {offset length i : Nat} (inside : i + 4 ≤ length) :
    wordAt? (m.slice offset length) i = some (m.wordAt (offset + i)) := by
  have byte (j : Nat) (low : j < 4) :
      (m.slice offset length)[i + j]? = some (m.cell (offset + i + j)) := by
    rw [Memory.getElem?_slice, if_pos (by omega), Nat.add_assoc]
  have first : (m.slice offset length)[i]? = some (m.cell (offset + i)) := byte 0 (by decide)
  rw [wordAt?, first, byte 1 (by decide), byte 2 (by decide), byte 3 (by decide)]
  rfl

theorem readU32_eq (small : m.size < 2 ^ 32) (offset : BitVec 32) :
    readU32 m offset = liftM (m.readU32 offset.toNat) := by
  have four : (4 : BitVec 32).toNat = 4 := rfl
  rw [readU32, read_eq small, four, Memory.readU32]
  by_cases fits : offset.toNat + 4 ≤ m.size
  · rw [Memory.read_of_le fits, ok_bind, wordAt?_slice (by decide)]
    rfl
  · rw [Memory.read_of_lt (Nat.lt_of_not_le fits), error_bind]
    rfl

theorem chunks_slice (m : Memory) (iovs count : Nat) :
    chunks 8 (m.slice iovs (8 * count)) =
      (List.range count).map fun j => m.slice (iovs + 8 * j) 8 := by
  rw [chunks, Memory.length_slice, Nat.mul_div_cancel_left count (by decide)]
  apply List.map_congr_left
  intro j member
  rw [List.mem_range] at member
  exact Memory.slice_slice (by omega)

theorem iovec?_slice (m : Memory) (offset : Nat) :
    iovec? (m.slice offset 8) = some ⟨m.wordAt offset, m.wordAt (offset + 4)⟩ := by
  rw [iovec?, wordAt?_slice (by decide), wordAt?_slice (by decide)]
  rfl

theorem mapM_iovec?_chunks (m : Memory) (iovs count : Nat) :
    (chunks 8 (m.slice iovs (8 * count))).mapM iovec? =
      some (Iovec.decode (m.slice iovs (8 * count))) := by
  rw [chunks_slice, List.mapM_map, WasiCall.decode_slice]
  simp only [Function.comp_def, iovec?_slice]
  exact List.mapM_pure

/-- The length of a table does not wrap, and is a word of 32 bits once it is in bounds. -/
theorem readAll_eq (small : m.size < 2 ^ 32) (iovs count : BitVec 32) :
    readAll m iovs count = liftM (Iovec.readAll m iovs.toNat count.toNat) := by
  obtain ⟨length, value⟩ : ∃ length : BitVec 64, length.toNat = 8 * count.toNat :=
    exists_toNat_eq (by omega)
  have product : mul? (widen count) 8 = some length := by
    rw [mul?_eq_some_iff, toNat_widen, value, Nat.mul_comm]
    rfl
  rw [readAll, product, Option.getM_some, pure_bind]
  by_cases fits : iovs.toNat + 8 * count.toNat ≤ m.size
  · obtain ⟨r, checked, -, -⟩ := checked_of_le small (widen iovs) length
      (by rwa [toNat_widen, value])
    obtain ⟨short, same⟩ : ∃ short : BitVec 32, short.toNat = length.toNat :=
      exists_toNat_eq (by omega)
    rw [checked, ok_bind, narrow?_eq_some_iff.mpr same, Option.getM_some, pure_bind,
      read_eq small, same, value, Memory.read_of_le fits, ok_bind, mapM_iovec?_chunks,
      Iovec.readAll_of_le fits small, Memory.slice_eq_read fits]
    rfl
  · have beyond := Nat.lt_of_not_le fits
    rw [checked_of_lt small (by rwa [toNat_widen, value]), error_bind, toNat_widen, value,
      Iovec.readAll_of_lt beyond]

end

/-! Sums -/

theorem toNat_foldl_add (vs : List Iovec) (sum : BitVec 64)
    (room : sum.toNat + 2 ^ 32 * vs.length < 2 ^ 64) :
    (vs.foldl (fun sum v => sum + widen v.length) sum).toNat = sum.toNat + Iovec.total vs := by
  induction vs generalizing sum with
  | nil => rfl
  | cons v vs ih =>
    have bound := v.length.isLt
    rw [List.length_cons] at room
    have next : (sum + widen v.length).toNat = sum.toNat + v.length.toNat := by
      rw [BitVec.toNat_add, toNat_widen, Nat.mod_eq_of_lt (by omega)]
    rw [List.foldl_cons, ih _ (by omega), next, Iovec.total_cons, Nat.add_assoc]

theorem toNat_total {vs : List Iovec} (counted : vs.length < 2 ^ 32) :
    (total vs).toNat = Iovec.total vs := by
  have zero : (0 : BitVec 64).toNat = 0 := rfl
  have sum := toNat_foldl_add vs 0 (by omega)
  rwa [zero, Nat.zero_add] at sum

/-- The buffers are checked one by one, and no sum of the lengths so far wraps. -/
theorem foldlM_addLength {m : Memory} (small : m.size < 2 ^ 32) (vs : List Iovec)
    (total : BitVec 64) (room : total.toNat + 2 ^ 32 * vs.length < 2 ^ 64) :
    vs.foldlM (addLength m) total =
      liftM ((vs.forM (Iovec.check m)).map fun _ =>
        BitVec.ofNat 64 (total.toNat + Iovec.total vs)) := by
  induction vs generalizing total with
  | nil =>
    have same : BitVec.ofNat 64 (total.toNat + Iovec.total []) = total := by
      simp [Iovec.total]
    rw [same]
    rfl
  | cons v vs ih =>
    have checks : (v :: vs).forM (Iovec.check m) =
      Iovec.check m v >>= fun _ => vs.forM (Iovec.check m) := rfl
    rw [List.length_cons] at room
    rw [List.foldlM_cons, addLength, checks, Iovec.check]
    by_cases fits : v.base.toNat + v.length.toNat ≤ m.size
    · obtain ⟨r, checked, -, -⟩ := checked_of_le small (widen v.base)
        (widen v.length) (by simpa using fits)
      have bound := v.length.isLt
      obtain ⟨sum, value⟩ : ∃ sum : BitVec 64, sum.toNat = total.toNat + v.length.toNat :=
        exists_toNat_eq (by omega)
      have added : add? total (widen v.length) = some sum := by
        rwa [add?_eq_some_iff, toNat_widen]
      rw [checked, ok_bind, added, Option.getM_some, pure_bind, ih sum (by omega),
        GuestHost.checkBounds_of_le fits, value, Iovec.total_cons, Nat.add_assoc]
      rfl
    · have beyond := Nat.lt_of_not_le fits
      rw [checked_of_lt small (by simpa using beyond), GuestHost.checkBounds_of_lt beyond,
        toNat_widen, toNat_widen]
      rfl

/-- What is gathered on words is what is gathered on numbers, with the sum of the lengths. -/
theorem gather_eq {m : Memory} (small : m.size < 2 ^ 32) (iovs count nwritten : BitVec 32) :
    gather m iovs count nwritten =
      liftM ((WasiCall.gather m iovs.toNat count.toNat nwritten.toNat).map fun vs =>
        (vs, BitVec.ofNat 64 (Iovec.total vs))) := by
  have four : (4 : BitVec 64).toNat = 4 := rfl
  rw [gather, readAll_eq small, WasiCall.gather]
  cases read : Iovec.readAll m iovs.toNat count.toNat with
  | error e => rfl
  | ok vs =>
    have length := Iovec.length_of_readAll read
    have bound := count.isLt
    have zero : (0 : BitVec 64).toNat = 0 := rfl
    have sums := foldlM_addLength small vs 0 (by omega)
    rw [zero, Nat.zero_add] at sums
    rw [ok_bind, sums]
    by_cases fits : nwritten.toNat + 4 ≤ m.size
    · obtain ⟨r, checked, -, -⟩ := checked_of_le small (widen nwritten) 4
        (by rwa [toNat_widen, four])
      rw [checked, ok_bind]
      simp only [bind, Except.bind, GuestHost.checkBounds_of_le fits]
      cases vs.forM (Iovec.check m) with
      | error e => rfl
      | ok => rfl
    · have beyond := Nat.lt_of_not_le fits
      rw [checked_of_lt small (by rwa [toNat_widen, four]), error_bind, toNat_widen, four]
      simp only [bind, Except.bind, GuestHost.checkBounds_of_lt beyond]
      rfl

end OnWords

end GuestHost
