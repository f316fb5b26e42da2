import GuestHost.Memory.Basic

/-!
Memory seen cell by cell. Main statements: a request is served exactly when its range lies below the
size, a read gives the cells of its range, and a write changes those cells and no other.
-/

namespace GuestHost

theorem checkBounds_of_le {offset length size : Nat} (h : offset + length ≤ size) :
    checkBounds offset length size = .ok (offset, offset + length) := by
  simp [checkBounds, h]

theorem checkBounds_of_lt {offset length size : Nat} (h : size < offset + length) :
    checkBounds offset length size = .error (.outOfBounds offset length size) := by
  simp [checkBounds, Nat.not_le.2 h]

namespace Memory

variable {m : Memory} {offset length : Nat} {bytes : List UInt8}

theorem getD_fillFrom (cells : Array UInt8) (i j : Nat) (bytes : List UInt8) :
    (fillFrom cells i bytes).getD j 0 =
      if i ≤ j ∧ j < i + bytes.length ∧ j < cells.size then bytes.getD (j - i) 0
      else cells.getD j 0 := by
  induction bytes generalizing cells i with
  | nil =>
    rw [if_neg]
    · rfl
    · rintro ⟨low, high, _⟩
      simp at high
      omega
  | cons b bs ih =>
    rw [fillFrom, ih]
    by_cases same : i = j
    · subst same
      by_cases inside : i < cells.size
      · rw [if_neg (by omega), if_pos ⟨Nat.le_refl i, by simp, inside⟩]
        simp [Array.getD_eq_getD_getElem?, inside]
      · simp [Array.getD_eq_getD_getElem?, inside]
    · by_cases above : i + 1 ≤ j
      · have shift : j - i = (j - (i + 1)) + 1 := by omega
        have low : i ≤ j := by omega
        simp only [above, low, true_and, List.length_cons, Array.size_setIfInBounds, shift,
          List.getD_cons_succ, Array.getD_eq_getD_getElem?, Array.getElem?_setIfInBounds, same,
          if_false]
        simp only [show i + (bs.length + 1) = i + 1 + bs.length by omega]
      · have low : ¬ i ≤ j := by omega
        simp [above, low, Array.getD_eq_getD_getElem?, same]

theorem getD_pad (cells : Array UInt8) (n j : Nat) :
    (cells ++ Array.replicate n 0).getD j 0 = cells.getD j 0 := by
  simp only [Array.getD_eq_getD_getElem?, Array.getElem?_append, Array.getElem?_replicate]
  split
  · rfl
  · rename_i outside
    rw [Array.getElem?_eq_none (by omega)]
    split <;> rfl

theorem cell_store (h : offset + bytes.length ≤ m.size) (i : Nat) :
    (m.store offset bytes).cell i =
      if offset ≤ i ∧ i < offset + bytes.length then bytes.getD (i - offset) 0 else m.cell i := by
  cases bytes with
  | nil =>
    rw [if_neg]
    · rfl
    · rintro ⟨low, high⟩
      simp at high
      omega
  | cons b bs =>
    have reach : min (offset + bs.length + 1) m.size = offset + bs.length + 1 := by
      simp at h
      omega
    rw [cell, store, getD_fillFrom, getD_pad, cell, reach]
    simp only [Array.size_append, Array.size_replicate, List.length_cons]
    by_cases inside : offset ≤ i ∧ i < offset + (bs.length + 1)
    · rw [if_pos inside, if_pos]
      exact ⟨inside.1, inside.2, by omega⟩
    · rw [if_neg inside, if_neg]
      exact fun all => inside ⟨all.1, all.2.1⟩

@[simp] theorem length_slice : (m.slice offset length).length = length := by simp [slice]

theorem getElem_slice {i : Nat} (h : i < (m.slice offset length).length) :
    (m.slice offset length)[i] = m.cell (offset + i) := by simp [slice]

theorem read_of_le (h : offset + length ≤ m.size) :
    m.read offset length = .ok (m.slice offset length) := by
  simp [read, checkBounds_of_le h, Except.map]

theorem read_of_lt (h : m.size < offset + length) :
    m.read offset length = .error (.outOfBounds offset length m.size) := by
  simp [read, checkBounds_of_lt h, Except.map]

theorem write_of_le (h : offset + bytes.length ≤ m.size) :
    m.write offset bytes = .ok (m.store offset bytes) := by
  simp [write, checkBounds_of_le h, Except.map]

theorem write_of_lt (h : m.size < offset + bytes.length) :
    m.write offset bytes = .error (.outOfBounds offset bytes.length m.size) := by
  simp [write, checkBounds_of_lt h, Except.map]

/-- The source is looked at only when the destination fits. -/
theorem copyWithin_eq (m : Memory) (dest src length : Nat) :
    m.copyWithin dest src length =
      if dest + length ≤ m.size then
        if src + length ≤ m.size then .ok (m.store dest (m.slice src length))
        else .error (.outOfBounds src length m.size)
      else .error (.outOfBounds dest length m.size) := by
  have copied (room : dest + length ≤ m.size) : m.copyWithin dest src length =
      (m.read src length).bind (m.write dest) := by
    rw [copyWithin, checkBounds_of_le room]
    rfl
  split
  · rename_i room
    rw [copied room]
    split
    · rename_i source
      rw [read_of_le source]
      exact write_of_le (by simpa using room)
    · rename_i beyond
      rw [read_of_lt (Nat.lt_of_not_le beyond)]
      rfl
  · rename_i beyond
    rw [copyWithin, checkBounds_of_lt (Nat.lt_of_not_le beyond)]
    rfl

end Memory

end GuestHost
