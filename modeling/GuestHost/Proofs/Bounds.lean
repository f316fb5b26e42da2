import GuestHost.Effect.Wasi

/-!
Requests to a memory can only be out of bounds.
-/

namespace GuestHost

variable {α β : Type}

/-- Nothing can go wrong but that a range is out of bounds. -/
def BoundsOnly (x : Except HostError α) : Prop :=
  ∀ e, x = .error e → ∃ offset length size, e = .outOfBounds offset length size

namespace BoundsOnly

theorem ok (a : α) : BoundsOnly (.ok a) := nofun

theorem outOfBounds (offset length size : Nat) :
    BoundsOnly (.error (.outOfBounds offset length size) : Except HostError α) := by
  intro e failed
  cases failed
  exact ⟨offset, length, size, rfl⟩

theorem checkBounds (offset length size : Nat) : BoundsOnly (checkBounds offset length size) := by
  unfold GuestHost.checkBounds
  split
  · exact ok _
  · exact outOfBounds offset length size

theorem bind {x : Except HostError α} {f : α → Except HostError β} (hx : BoundsOnly x)
    (hf : ∀ a, BoundsOnly (f a)) : BoundsOnly (x >>= f) := by
  intro e failed
  cases x with
  | error e' =>
    cases failed
    exact hx e rfl
  | ok a => exact hf a e failed

theorem map {x : Except HostError α} (f : α → β) (hx : BoundsOnly x) : BoundsOnly (x.map f) := by
  intro e failed
  cases x with
  | error e' =>
    cases failed
    exact hx e rfl
  | ok a => cases failed

theorem forM {f : α → Except HostError PUnit} (hf : ∀ a, BoundsOnly (f a)) (as : List α) :
    BoundsOnly (as.forM f) := by
  induction as with
  | nil => exact ok _
  | cons a as ih => exact (hf a).bind fun _ => ih

variable (m : Memory)

theorem read (offset length : Nat) : BoundsOnly (m.read offset length) :=
  (checkBounds offset length m.size).map _

theorem write (offset : Nat) (bytes : List UInt8) : BoundsOnly (m.write offset bytes) :=
  (checkBounds offset bytes.length m.size).map _

theorem copyWithin (dest src length : Nat) : BoundsOnly (m.copyWithin dest src length) :=
  (checkBounds dest length m.size).bind fun _ => (read m src length).bind fun bytes =>
    write m dest bytes

theorem readAll (offset count : Nat) : BoundsOnly (Iovec.readAll m offset count) := by
  apply (checkBounds offset (8 * count) m.size).bind
  intro _
  split
  · exact bind (outOfBounds offset (8 * count) m.size) fun _ => bind (read m _ _) fun _ => ok _
  · exact (read m offset (8 * count)).bind fun bytes => ok _

theorem gather (iovs count nwritten : Nat) :
    BoundsOnly (WasiCall.gather m iovs count nwritten) := by
  have check (v : Iovec) : BoundsOnly (v.check m) :=
    (checkBounds v.base.toNat v.length.toNat m.size).map _
  exact (readAll m iovs count).bind fun vs => (checkBounds nwritten 4 m.size).bind fun _ =>
    (forM check vs).bind fun _ => ok vs

theorem edit (m : LinearMemory) {f : Memory → Except HostError Memory}
    (hf : BoundsOnly (f m.toMemory)) : BoundsOnly (m.edit f) := hf.map m.put

end BoundsOnly

end GuestHost
