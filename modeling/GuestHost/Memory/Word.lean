import GuestHost.Memory.Basic

/-!
Words in memory, least significant byte first.
-/

namespace GuestHost

namespace Word

def bytes {k : Nat} (w : BitVec k) : Nat → List UInt8
  | 0 => []
  | n + 1 => UInt8.ofBitVec (w.setWidth 8) :: bytes (w >>> 8) n

/-- The number whose bytes are given, least significant first. -/
def ofBytes (k : Nat) : List UInt8 → BitVec k
  | [] => 0
  | b :: bs => b.toBitVec.setWidth k ||| (ofBytes k bs <<< 8)

@[simp] theorem length_bytes {k : Nat} (w : BitVec k) (n : Nat) : (bytes w n).length = n := by
  induction n generalizing w with
  | zero => rfl
  | succ n ih => simp [bytes, ih]

theorem getLsbD_ofBytes_bytes {k : Nat} (w : BitVec k) (n i : Nat) :
    (ofBytes k (bytes w n)).getLsbD i = (decide (i < 8 * n) && w.getLsbD i) := by
  induction n generalizing w i with
  | zero => simp [bytes, ofBytes]
  | succ n ih =>
    simp only [bytes, ofBytes, BitVec.getLsbD_or, BitVec.getLsbD_shiftLeft, ih,
      BitVec.getLsbD_setWidth, BitVec.getLsbD_ushiftRight]
    have := w.lt_of_getLsbD (i := i)
    grind

theorem ofBytes_bytes {k n : Nat} (w : BitVec k) (h : k ≤ 8 * n) : ofBytes k (bytes w n) = w := by
  apply BitVec.eq_of_getLsbD_eq
  intro i hi
  rw [getLsbD_ofBytes_bytes, decide_eq_true (by omega), Bool.true_and]

end Word

namespace Memory

def readU32 (m : Memory) (offset : Nat) : Except HostError (BitVec 32) :=
  (m.read offset 4).map (Word.ofBytes 32)

def writeU32 (m : Memory) (offset : Nat) (w : BitVec 32) : Except HostError Memory :=
  m.write offset (Word.bytes w 4)

def writeU64 (m : Memory) (offset : Nat) (w : BitVec 64) : Except HostError Memory :=
  m.write offset (Word.bytes w 8)

end Memory

end GuestHost
