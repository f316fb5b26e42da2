import GuestHost.Proofs.MemoryFrame
import GuestHost.Session.Memory
import Mathlib.Data.Nat.Digits.Defs

/-!
Memory as the plain list of its bytes. Main statement: memories of fixed size and memories that grow
answer every sequence of requests as the list of their bytes does.
-/

namespace GuestHost

structure Span where
  offset : Nat
  length : Nat
  deriving DecidableEq, Repr

/-- The ranges that a request names, in the order in which they are checked. -/
def MemoryRequest.spans : MemoryRequest → List Span
  | size => []
  | read offset length | any offset length | fill offset length _ => [⟨offset, length⟩]
  | write offset bytes => [⟨offset, bytes.length⟩]
  | readU32 offset | writeU32 offset _ => [⟨offset, 4⟩]
  | writeU64 offset _ => [⟨offset, 8⟩]
  | copy dest src length => [⟨dest, length⟩, ⟨src, length⟩]

/-- All bytes, in the order of their addresses. -/
abbrev PlainMemory := List UInt8

namespace PlainMemory

def read (bs : PlainMemory) (offset length : Nat) : List UInt8 := (bs.drop offset).take length

def overwrite (bs : PlainMemory) (offset : Nat) (bytes : List UInt8) : PlainMemory :=
  bs.take offset ++ bytes ++ bs.drop (offset + bytes.length)

def number (bs : PlainMemory) (offset length : Nat) : Nat :=
  Nat.ofDigits 256 ((bs.read offset length).map (·.toNat))

def digits (length n : Nat) : List UInt8 :=
  (List.range length).map fun i => UInt8.ofNat (n / 256 ^ i)

def beyond? (bs : PlainMemory) (spans : List Span) : Option Span :=
  spans.find? fun r => bs.length < r.offset + r.length

def answer (bs : PlainMemory) : MemoryRequest → Reply
  | .size => .size bs.length
  | .read offset length => .bytes (bs.read offset length)
  | .any offset length => .flag ((bs.read offset length).any (· ≠ 0))
  | .readU32 offset => .word (BitVec.ofNat 32 (bs.number offset 4))
  | _ => .nothing

def change (bs : PlainMemory) : MemoryRequest → PlainMemory
  | .write offset bytes => bs.overwrite offset bytes
  | .fill offset length byte => bs.overwrite offset (List.replicate length byte)
  | .writeU32 offset word => bs.overwrite offset (digits 4 word.toNat)
  | .writeU64 offset word => bs.overwrite offset (digits 8 word.toNat)
  | .copy dest src length => bs.overwrite dest (bs.read src length)
  | _ => bs

/-- A request is served if all its ranges end within the size. Otherwise it fails for the first that
does not, and nothing changes. -/
def serve (bs : PlainMemory) (q : MemoryRequest) : Reply × PlainMemory :=
  match bs.beyond? q.spans with
  | none => (bs.answer q, bs.change q)
  | some r => (.hostError (.outOfBounds r.offset r.length bs.length), bs)

def serveAll (bs : PlainMemory) : List MemoryRequest → List Reply × PlainMemory
  | [] => ([], bs)
  | q :: qs =>
    let (reply, bs) := bs.serve q
    let (replies, bs) := bs.serveAll qs
    (reply :: replies, bs)

variable {bs : PlainMemory} {offset length : Nat} {bytes : List UInt8} {spans : List Span}

/-! Which ranges fit -/

theorem beyond?_cons_of_le {r : Span} (fits : r.offset + r.length ≤ bs.length) :
    bs.beyond? (r :: spans) = bs.beyond? spans := by
  simp [beyond?, fits]

theorem beyond?_cons_of_lt {r : Span} (beyond : bs.length < r.offset + r.length) :
    bs.beyond? (r :: spans) = some r := by
  simp [beyond?, beyond]

theorem fits_of_beyond? (none : bs.beyond? spans = none) {r : Span} (member : r ∈ spans) :
    r.offset + r.length ≤ bs.length := by
  have fits := List.find?_eq_none.mp none r member
  simpa using fits

theorem serve_of_fits {q : MemoryRequest} (fits : bs.beyond? q.spans = none) :
    bs.serve q = (bs.answer q, bs.change q) := by
  rw [serve, fits]

theorem serve_of_beyond {q : MemoryRequest} {r : Span} (first : bs.beyond? q.spans = some r) :
    bs.serve q = (.hostError (.outOfBounds r.offset r.length bs.length), bs) := by
  rw [serve, first]

/-! What requests do to the list -/

theorem getElem?_read (bs : PlainMemory) (offset length i : Nat) :
    (bs.read offset length)[i]? = if i < length then bs[offset + i]? else none := by
  rw [read, List.getElem?_take, List.getElem?_drop]

theorem length_read (fits : offset + length ≤ bs.length) :
    (bs.read offset length).length = length := by
  simp only [read, List.length_take, List.length_drop]
  omega

theorem getElem?_overwrite (fits : offset + bytes.length ≤ bs.length) (i : Nat) :
    (bs.overwrite offset bytes)[i]? =
      if offset ≤ i ∧ i < offset + bytes.length then bytes[i - offset]? else bs[i]? := by
  have start : (bs.take offset).length = offset := by
    rw [List.length_take]
    omega
  rw [overwrite, List.append_assoc, List.getElem?_append, start]
  split
  · rename_i below
    rw [if_neg (by omega), List.getElem?_take, if_pos below]
  · rw [List.getElem?_append]
    split
    · rw [if_pos (by omega)]
    · rw [if_neg (by omega), List.getElem?_drop]
      congr 1
      omega

theorem length_overwrite (fits : offset + bytes.length ≤ bs.length) :
    (bs.overwrite offset bytes).length = bs.length := by
  simp only [overwrite, List.length_append, List.length_take, List.length_drop]
  omega

theorem overwrite_append (bs : PlainMemory) (offset : Nat) (first second : List UInt8)
    (fits : offset + (first ++ second).length ≤ bs.length) :
    bs.overwrite offset (first ++ second) =
      (bs.overwrite offset first).overwrite (offset + first.length) second := by
  rw [List.length_append] at fits
  apply List.ext_getElem?
  intro i
  rw [getElem?_overwrite (by simpa using fits), getElem?_overwrite, getElem?_overwrite (by omega),
    List.length_append, List.getElem?_append]
  · grind
  · rw [length_overwrite (by omega)]
    omega

@[simp] theorem length_digits (length n : Nat) : (digits length n).length = length := by
  simp [digits]

theorem digits_succ (length n : Nat) :
    digits (length + 1) n = UInt8.ofNat n :: digits length (n / 256) := by
  simp [digits, List.range_succ_eq_map, Function.comp_def, Nat.pow_succ', Nat.div_div_eq_div_mul]

theorem digits_add (j k n : Nat) : digits (j + k) n = digits j n ++ digits k (n / 256 ^ j) := by
  simp [digits, List.range_add, Function.comp_def, Nat.pow_add, Nat.div_div_eq_div_mul]

theorem digits_mod (length n : Nat) : digits length (n % 256 ^ length) = digits length n := by
  induction length generalizing n with
  | zero => rfl
  | succ length ih =>
    have lowest : UInt8.ofNat (n % (256 * 256 ^ length)) = UInt8.ofNat n := by
      apply UInt8.toNat_inj.mp
      rw [UInt8.toNat_ofNat', UInt8.toNat_ofNat']
      exact Nat.mod_mul_right_mod n (2 ^ 8) (256 ^ length)
    rw [digits_succ, digits_succ, Nat.pow_succ', lowest, Nat.mod_mul_right_div_self, ih]

theorem ofDigits_digits (length n : Nat) :
    Nat.ofDigits 256 ((digits length n).map (·.toNat)) = n % 256 ^ length := by
  induction length generalizing n with
  | zero => simp [digits, Nat.mod_one]
  | succ length ih =>
    rw [digits_succ, List.map_cons, Nat.ofDigits_cons, ih, Nat.pow_succ', Nat.mod_mul]
    simp

theorem read_overwrite (fits : offset + bytes.length ≤ bs.length) :
    (bs.overwrite offset bytes).read offset bytes.length = bytes := by
  apply List.ext_getElem?
  intro i
  rw [getElem?_read, getElem?_overwrite fits]
  grind

theorem number_overwrite (length n : Nat) (fits : offset + length ≤ bs.length) :
    (bs.overwrite offset (digits length n)).number offset length = n % 256 ^ length := by
  have written : (bs.overwrite offset (digits length n)).read offset (digits length n).length =
    digits length n := read_overwrite (by simpa using fits)
  rw [length_digits] at written
  rw [number, written, ofDigits_digits]

theorem length_serve (bs : PlainMemory) (q : MemoryRequest) :
    (bs.serve q).2.length = bs.length := by
  cases first : bs.beyond? q.spans with
  | some r => rw [serve_of_beyond first]
  | none =>
    have fits {r : Span} (member : r ∈ q.spans) := fits_of_beyond? first member
    rw [serve_of_fits first]
    cases q with
    | size | read | any | readU32 => rfl
    | write => exact length_overwrite (fits (.head _))
    | fill | writeU32 | writeU64 => exact length_overwrite (by simpa using fits (.head _))
    | copy dest src length =>
      have source : src + length ≤ bs.length := fits (.tail _ (.head _))
      have room : dest + length ≤ bs.length := fits (.head _)
      exact length_overwrite (by rwa [length_read source])

end PlainMemory

/-! The bytes of a memory -/

namespace Memory

variable {m : Memory} {offset length : Nat} {bytes : List UInt8}

def plain (m : Memory) : PlainMemory := m.toList

@[simp] theorem length_plain (m : Memory) : m.plain.length = m.size := length_slice

theorem cell_of_le {i : Nat} (beyond : m.size ≤ i) : m.cell i = 0 := by
  have untouched : m.touched.size ≤ i := Nat.le_trans m.touched_le beyond
  simp [cell, Array.getD_eq_getD_getElem?, untouched]

theorem getElem?_slice (m : Memory) (offset length i : Nat) :
    (m.slice offset length)[i]? = if i < length then some (m.cell (offset + i)) else none := by
  split
  · rename_i inside
    simp [slice, inside]
  · rename_i beyond
    simpa using beyond

theorem getElem?_plain (m : Memory) (i : Nat) :
    m.plain[i]? = if i < m.size then some (m.cell i) else none := by
  rw [plain, toList, getElem?_slice, Nat.zero_add]

theorem slice_eq_read (fits : offset + length ≤ m.size) :
    m.slice offset length = m.plain.read offset length := by
  apply List.ext_getElem?
  intro i
  rw [getElem?_slice, PlainMemory.getElem?_read, getElem?_plain]
  grind

theorem plain_store (fits : offset + bytes.length ≤ m.size) :
    (m.store offset bytes).plain = m.plain.overwrite offset bytes := by
  apply List.ext_getElem?
  intro i
  rw [getElem?_plain, PlainMemory.getElem?_overwrite (by simpa using fits), getElem?_plain,
    size_store, cell_store fits]
  grind

end Memory

namespace Word

theorem bytes_eq_digits {k : Nat} (w : BitVec k) (n : Nat) :
    bytes w n = PlainMemory.digits n w.toNat := by
  induction n generalizing w with
  | zero => rfl
  | succ n ih =>
    have low : UInt8.ofBitVec (w.setWidth 8) = UInt8.ofNat w.toNat := by
      rw [← BitVec.ofNat_toNat]
      rfl
    have rest : (w >>> 8).toNat = w.toNat / 256 := by
      rw [BitVec.toNat_ushiftRight, Nat.shiftRight_eq_div_pow]
    rw [bytes, PlainMemory.digits_succ, ih, low, rest]

theorem ofBytes_eq_ofDigits (k : Nat) (bs : List UInt8) :
    ofBytes k bs = BitVec.ofNat k (Nat.ofDigits 256 (bs.map (·.toNat))) := by
  induction bs with
  | nil => rfl
  | cons b bs ih =>
    -- Bit by bit: the lowest byte and the bits above it do not overlap.
    apply BitVec.eq_of_getLsbD_eq
    intro i inside
    have split := Nat.testBit_two_pow_mul_add (Nat.ofDigits 256 (bs.map (·.toNat))) b.toNat_lt i
    have low : b.toBitVec.getLsbD i = b.toNat.testBit i := rfl
    rw [List.map_cons, Nat.ofDigits_cons, Nat.add_comm, ofBytes, ih, BitVec.getLsbD_or,
      BitVec.getLsbD_setWidth, BitVec.getLsbD_shiftLeft, BitVec.getLsbD_ofNat,
      BitVec.getLsbD_ofNat, low, split]
    split
    · simp [*]
    · rename_i high
      have none : b.toNat.testBit i = false := by
        apply Nat.testBit_lt_two_pow
        exact lt_of_lt_of_le b.toNat_lt (Nat.pow_le_pow_right (by decide) (by omega))
      simp [inside, none, high, show i - 8 < k by omega]

end Word

/-! Memories of fixed size -/

namespace Memory

variable {m : Memory} {offset length : Nat}

/-- What a request is answered, with the bytes that it leaves. -/
def seen {ρ : Type} (x : ρ × Memory) : ρ × PlainMemory := (x.1, x.2.plain)

theorem seen_read {q : MemoryRequest} (f : List UInt8 → Reply) (m : Memory) (offset length : Nat)
    (spans : q.spans = [⟨offset, length⟩])
    (answer : m.plain.answer q = f (m.plain.read offset length))
    (change : m.plain.change q = m.plain) :
    seen (MemoryRequest.answer f (m.read offset length), m) = m.plain.serve q := by
  by_cases fits : offset + length ≤ m.size
  · have all : m.plain.beyond? q.spans = none := by
      rw [spans, PlainMemory.beyond?_cons_of_le (by simpa using fits)]
      rfl
    rw [PlainMemory.serve_of_fits all, answer, change, read_of_le fits, slice_eq_read fits]
    rfl
  · have beyond := Nat.lt_of_not_le fits
    have first : m.plain.beyond? q.spans = some ⟨offset, length⟩ := by
      rw [spans, PlainMemory.beyond?_cons_of_lt (by simpa using beyond)]
    rw [PlainMemory.serve_of_beyond first, length_plain, read_of_lt beyond]
    rfl

theorem seen_write {q : MemoryRequest} (m : Memory) (offset : Nat) (bytes : List UInt8)
    (spans : q.spans = [⟨offset, bytes.length⟩]) (answer : m.plain.answer q = .nothing)
    (change : m.plain.change q = m.plain.overwrite offset bytes) :
    seen (MemoryRequest.change m (m.write offset bytes)) = m.plain.serve q := by
  by_cases fits : offset + bytes.length ≤ m.size
  · have all : m.plain.beyond? q.spans = none := by
      rw [spans, PlainMemory.beyond?_cons_of_le (by simpa using fits)]
      rfl
    rw [PlainMemory.serve_of_fits all, answer, change, write_of_le fits, ← plain_store fits]
    rfl
  · have beyond := Nat.lt_of_not_le fits
    have first : m.plain.beyond? q.spans = some ⟨offset, bytes.length⟩ := by
      rw [spans, PlainMemory.beyond?_cons_of_lt (by simpa using beyond)]
    rw [PlainMemory.serve_of_beyond first, length_plain, write_of_lt beyond]
    rfl

theorem seen_copy (m : Memory) (dest src length : Nat) :
    seen (MemoryRequest.change m (m.copyWithin dest src length)) =
      m.plain.serve (.copy dest src length) := by
  have spans : (MemoryRequest.copy dest src length).spans =
    [⟨dest, length⟩, ⟨src, length⟩] := rfl
  rw [copyWithin_eq]
  split
  · rename_i room
    have second : m.plain.beyond? (MemoryRequest.copy dest src length).spans =
        m.plain.beyond? [⟨src, length⟩] := by
      rw [spans, PlainMemory.beyond?_cons_of_le (by simpa using room)]
    split
    · rename_i source
      have stored : (m.store dest (m.slice src length)).plain =
        m.plain.overwrite dest (m.slice src length) := plain_store (by simpa using room)
      rw [PlainMemory.beyond?_cons_of_le (by simpa using source)] at second
      rw [PlainMemory.serve_of_fits second, PlainMemory.change, ← slice_eq_read source, ← stored]
      rfl
    · rename_i beyond
      rw [PlainMemory.beyond?_cons_of_lt (by simpa using beyond)] at second
      rw [PlainMemory.serve_of_beyond second, length_plain]
      rfl
  · rename_i beyond
    have first : m.plain.beyond? (MemoryRequest.copy dest src length).spans =
        some ⟨dest, length⟩ := by
      rw [spans, PlainMemory.beyond?_cons_of_lt (by simpa using beyond)]
    rw [PlainMemory.serve_of_beyond first, length_plain]
    rfl

theorem seen_serve (m : Memory) (q : MemoryRequest) : seen (q.serve m) = m.plain.serve q := by
  cases q with
  | size => exact Prod.ext (congrArg Reply.size m.length_plain.symm) rfl
  | read offset length => exact seen_read _ m offset length rfl rfl rfl
  | any offset length => exact seen_read _ m offset length rfl rfl rfl
  | write offset bytes => exact seen_write m offset bytes rfl rfl rfl
  | fill offset length byte =>
    have long : (List.replicate length byte).length = length := List.length_replicate
    have filled := seen_write (q := .fill offset length byte) m offset
      (List.replicate length byte) (by rw [long]; rfl) rfl rfl
    rw [Memory.write, long] at filled
    exact filled
  | readU32 offset =>
    have decoded (x : Except HostError (List UInt8)) :
        MemoryRequest.answer .word (x.map (Word.ofBytes 32)) =
          MemoryRequest.answer (fun bytes => .word (Word.ofBytes 32 bytes)) x := by
      cases x <;> rfl
    rw [MemoryRequest.serve, readU32, decoded]
    exact seen_read _ m offset 4 rfl (by rw [Word.ofBytes_eq_ofDigits]; rfl) rfl
  | writeU32 offset word =>
    exact seen_write m offset _ (by rw [Word.length_bytes]; rfl) rfl
      (by rw [Word.bytes_eq_digits]; rfl)
  | writeU64 offset word =>
    exact seen_write m offset _ (by rw [Word.length_bytes]; rfl) rfl
      (by rw [Word.bytes_eq_digits]; rfl)
  | copy dest src length => exact seen_copy m dest src length

theorem seen_serveAll (m : Memory) (qs : List MemoryRequest) :
    seen (MemoryRequest.serveAll m qs) = m.plain.serveAll qs := by
  induction qs generalizing m with
  | nil => rfl
  | cons q qs ih =>
    simp only [MemoryRequest.serveAll, PlainMemory.serveAll, ← seen_serve, ← ih, seen]

end Memory

/-! Memories that grow -/

inductive Access
  | memory (q : MemoryRequest)
  | pages
  | grow (delta : Nat)

namespace PlainMemory

/-- New pages hold zeros and come behind the old bytes. There are at most `limit` pages. -/
def access (limit : Nat) (bs : PlainMemory) : Access → Reply × PlainMemory
  | .memory q => bs.serve q
  | .pages => (.size (bs.length / pageSize), bs)
  | .grow delta =>
    if bs.length / pageSize + delta ≤ limit then
      (.size (bs.length / pageSize), bs ++ List.replicate (delta * pageSize) 0)
    else (.growRefused, bs)

def accessAll (limit : Nat) (bs : PlainMemory) : List Access → List Reply × PlainMemory
  | [] => ([], bs)
  | a :: as =>
    let (reply, bs) := bs.access limit a
    let (replies, bs) := bs.accessAll limit as
    (reply :: replies, bs)

end PlainMemory

namespace LinearMemory

def access (m : LinearMemory) : Access → Reply × LinearMemory
  | .memory q => let (reply, contents) := q.serve m.toMemory; (reply, m.put contents)
  | .pages => (.size m.pages, m)
  | .grow delta => match m.grow delta with
    | some grown => (.size m.pages, grown)
    | none => (.growRefused, m)

def accessAll (m : LinearMemory) : List Access → List Reply × LinearMemory
  | [] => ([], m)
  | a :: as =>
    let (reply, m) := m.access a
    let (replies, m) := m.accessAll as
    (reply :: replies, m)

theorem limit_put (m : LinearMemory) (contents : Memory) : (m.put contents).limit = m.limit := by
  unfold put
  split <;> rfl

theorem limit_of_grow {m m' : LinearMemory} {delta : Nat} (grown : m.grow delta = some m') :
    m'.limit = m.limit := by
  unfold grow at grown
  split at grown <;> cases grown
  rfl

theorem limit_access (m : LinearMemory) (a : Access) : (m.access a).2.limit = m.limit := by
  cases a with
  | memory q => exact m.limit_put _
  | pages => rfl
  | grow delta =>
    rw [access]
    split
    · rename_i grown
      exact limit_of_grow grown
    · rfl

theorem pages_eq (m : LinearMemory) : m.plain.length / pageSize = m.pages := by
  rw [Memory.length_plain, m.size_eq, Nat.mul_div_cancel _ (by decide)]

theorem plain_of_grow {m m' : LinearMemory} {delta : Nat} (grown : m.grow delta = some m') :
    m'.plain = m.plain ++ List.replicate (delta * pageSize) 0 := by
  apply List.ext_getElem?
  intro i
  rw [Memory.getElem?_plain, cell_of_grow grown, size_of_grow grown, List.getElem?_append,
    Memory.getElem?_plain, Memory.length_plain, List.getElem?_replicate]
  by_cases old : i < m.size
  · rw [if_pos old, if_pos old, if_pos (by omega)]
  · have zero : m.cell i = 0 := Memory.cell_of_le (Nat.le_of_not_lt old)
    have new : i < m.size + delta * pageSize ↔ i - m.size < delta * pageSize := by omega
    simp only [if_neg old, zero, new]

theorem plain_access (m : LinearMemory) (a : Access) :
    m.plain.access m.limit a = ((m.access a).1, (m.access a).2.plain) := by
  cases a with
  | memory q =>
    have served := Memory.seen_serve m.toMemory q
    have size : (q.serve m.toMemory).2.size = m.size := by
      rw [← Memory.length_plain, ← Memory.length_plain, ← PlainMemory.length_serve m.plain q,
        ← served]
      rfl
    rw [access, m.put_toMemory size]
    exact served.symm
  | pages =>
    rw [PlainMemory.access, pages_eq]
    rfl
  | grow delta =>
    rw [PlainMemory.access, pages_eq, access]
    cases grown : m.grow delta with
    | some m' =>
      have room : m.pages + delta ≤ m.limit := by
        unfold grow at grown
        split at grown <;> cases grown
        assumption
      rw [if_pos room, ← plain_of_grow grown]
    | none =>
      have full : ¬ m.pages + delta ≤ m.limit := by
        unfold grow at grown
        split at grown <;> cases grown
        assumption
      rw [if_neg full]

theorem plain_accessAll (m : LinearMemory) (as : List Access) :
    m.plain.accessAll m.limit as = ((m.accessAll as).1, (m.accessAll as).2.plain) := by
  induction as generalizing m with
  | nil => rfl
  | cons a as ih =>
    have first := plain_access m a
    have rest := ih (m.access a).2
    rw [limit_access] at rest
    simp only [PlainMemory.accessAll, accessAll, first, rest]

end LinearMemory

end GuestHost
