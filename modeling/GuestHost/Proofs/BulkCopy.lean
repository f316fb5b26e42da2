import GuestHost.Proofs.Linked
import GuestHost.Proofs.MemorySessions
import GuestHost.Proofs.Routes

/-!
Bulk copies. Main statement: whoever asks for a copy, the bytes of the source arrive as they were
before it, however the two ranges overlap; or the copy fails for the first range that does not fit,
the destination being looked at first, and nothing changes.
-/

namespace GuestHost

open Wasm (Val)

/-- How a copy ends, and the bytes that it leaves. -/
inductive PlainMemory.CopyEnds (bs : PlainMemory) (dest src length : Nat) :
    Except HostError Unit → PlainMemory → Prop
  | noRoom (beyond : bs.length < dest + length) :
    CopyEnds bs dest src length (.error (.outOfBounds dest length bs.length)) bs
  | noSource (room : dest + length ≤ bs.length) (beyond : bs.length < src + length) :
    CopyEnds bs dest src length (.error (.outOfBounds src length bs.length)) bs
  | copied {bs' : PlainMemory} (room : dest + length ≤ bs.length)
      (source : src + length ≤ bs.length) (size : bs'.length = bs.length)
      (moved : ∀ i < length, bs'[dest + i]? = bs[src + i]?)
      (kept : ∀ i, i < dest ∨ dest + length ≤ i → bs'[i]? = bs[i]?) :
    CopyEnds bs dest src length (.ok ()) bs'

theorem PlainMemory.CopyEnds.ok_iff {bs bs' : PlainMemory} {dest src length : Nat}
    {r : Except HostError Unit} (ends : bs.CopyEnds dest src length r bs') :
    r = .ok () ↔ dest + length ≤ bs.length ∧ src + length ≤ bs.length := by
  cases ends with
  | noRoom beyond => exact iff_of_false nofun fun fits => absurd fits.1 (Nat.not_le.mpr beyond)
  | noSource _ beyond => exact iff_of_false nofun fun fits => absurd fits.2 (Nat.not_le.mpr beyond)
  | copied room source => exact iff_of_true rfl ⟨room, source⟩

namespace Memory

theorem copyWithin_ends (m : Memory) (dest src length : Nat) :
    ∃ (r : Except HostError Unit) (m' : Memory),
      m.copyWithin dest src length = r.map (fun _ => m') ∧
      (∀ e, r = .error e → m' = m) ∧ m'.size = m.size ∧
      m.plain.CopyEnds dest src length r m'.plain := by
  rw [copyWithin_eq]
  split
  · rename_i room
    split
    · rename_i source
      have fits : dest + (m.slice src length).length ≤ m.size := by simpa using room
      have left := plain_store fits
      rw [slice_eq_read source] at left
      simp only [← length_plain] at room source
      refine ⟨.ok (), m.store dest (m.slice src length), rfl, nofun, size_store .., ?_⟩
      rw [slice_eq_read (by simpa using source), left]
      refine .copied room source ?_ (fun i inside => ?_) (fun i outside => ?_)
      · exact PlainMemory.length_overwrite (by rwa [PlainMemory.length_read source])
      · rw [PlainMemory.getElem?_copy room source, if_pos (by omega), Nat.add_sub_cancel_left]
      · rw [PlainMemory.getElem?_copy room source, if_neg (by omega)]
    · rename_i beyond
      refine ⟨.error (.outOfBounds src length m.size), m, rfl, fun _ _ => rfl, rfl, ?_⟩
      simp only [← length_plain] at room beyond ⊢
      exact .noSource room (Nat.lt_of_not_le beyond)
  · rename_i beyond
    refine ⟨.error (.outOfBounds dest length m.size), m, rfl, fun _ _ => rfl, rfl, ?_⟩
    simp only [← length_plain] at beyond ⊢
    exact .noRoom (Nat.lt_of_not_le beyond)

theorem serve_copy_ends (m : Memory) (dest src length : Nat) :
    ∃ r m', (MemoryRequest.copy dest src length).serve m =
        (MemoryRequest.answer (fun _ => .nothing) r, m') ∧
      m'.size = m.size ∧ m.plain.CopyEnds dest src length r m'.plain := by
  obtain ⟨r, m', copied, failed, size, ends⟩ := m.copyWithin_ends dest src length
  refine ⟨r, m', ?_, size, ends⟩
  rw [MemoryRequest.serve, copied]
  cases r with
  | ok => rfl
  | error e => rw [failed e rfl]; rfl

end Memory

namespace LinearMemory

theorem put_self (m : LinearMemory) : m.put m.toMemory = m := by simp [put]

theorem plain_put (m : LinearMemory) {contents : Memory} (size : contents.size = m.size) :
    (m.put contents).plain = contents.plain := by
  rw [m.put_toMemory size]

theorem edit_copyWithin_ends (m : LinearMemory) (dest src length : Nat) :
    ∃ (r : Except HostError Unit) (m' : LinearMemory),
      m.edit (·.copyWithin dest src length) = r.map (fun _ => m') ∧
      (∀ e, r = .error e → m' = m) ∧ m'.limit = m.limit ∧
      m.plain.CopyEnds dest src length r m'.plain := by
  obtain ⟨r, contents, copied, failed, size, ends⟩ := m.toMemory.copyWithin_ends dest src length
  refine ⟨r, m.put contents, ?_, fun e refused => ?_, m.limit_put contents, ?_⟩
  · rw [edit, copied]
    cases r <;> rfl
  · rw [failed e refused, m.put_self]
  · rwa [m.plain_put size]

end LinearMemory

namespace Primitive

variable {c : Context} {s : Store} {m : LinearMemory}

theorem startAt_copy (found : c.memoryIn s = some m) (dest src length : BitVec 32) :
    ∃ (r : Except HostError Unit) (m' : LinearMemory),
      (copy c dest src length).startAt s =
        .done (r.mapError Stop.host, { s with memory := some m' }) ∧
      m'.limit = m.limit ∧
      m.plain.CopyEnds dest.toNat src.toNat length.toNat r m'.plain := by
  obtain ⟨r, m', copied, failed, limit, ends⟩ :=
    m.edit_copyWithin_ends dest.toNat src.toNat length.toNat
  refine ⟨r, m', ?_, limit, ends⟩
  rw [copy, Run.startAt_bind, ContextIn.startAt_memory, found, Action.done_bind]
  dsimp only
  rw [copied]
  cases r with
  | ok => rfl
  | error e =>
    rw [failed e rfl, ← ContextIn.memory_of_memoryIn found]
    rfl

end Primitive

/-- A buffer of fixed size, the memory of a guest in a session, and the memory that a guest exports
when its code calls the copy under either name. -/
theorem PlainMemory.copy_moves :
    (∀ (m : Memory) (dest src length : Nat),
      ∃ r m', (MemoryRequest.copy dest src length).serve m =
          (MemoryRequest.answer (fun _ => .nothing) r, m') ∧
        m.plain.CopyEnds dest src length r m'.plain) ∧
    (∀ (s : Session) (i : Nat) (m : LinearMemory), s.memory? i = some m →
      ∀ dest src length : Nat, ∃ r m' s',
        s.step (.memory i (.copy dest src length)) =
          .done (MemoryRequest.answer (fun _ => .nothing) r, s') ∧
        s'.memory? i = some m' ∧ m'.limit = m.limit ∧
        m.plain.CopyEnds dest src length r m'.plain) ∧
    (∀ (image : Image) (j : Nat) (name : String),
      name ∈ ["emscripten_memcpy_big", "_emscripten_memcpy_js"] →
      image.HasImport j ⟨HostFunction.env, name⟩ → image.exportsMemory = true →
      ∀ (s : Store) (m : LinearMemory), s.memory = some m →
      ∀ (depth : Nat) (dest src length : BitVec 32), ∃ r m',
        (image.callAs .guest (depth + 1) j [.i32 dest, .i32 src, .i32 length]).startAt s =
          .done ((r.map fun _ => []).mapError Stop.host, { s with memory := some m' }) ∧
        m'.limit = m.limit ∧
        m.plain.CopyEnds dest.toNat src.toNat length.toNat r m'.plain) ∧
    ∀ (bs bs' : PlainMemory) (dest src length : Nat) (r : Except HostError Unit),
      bs.CopyEnds dest src length r bs' →
        (r = .ok () ↔ dest + length ≤ bs.length ∧ src + length ≤ bs.length) := by
  refine ⟨fun m dest src length => ?_, fun s i m held dest src length => ?_,
    fun image j name named imported exported s m held depth dest src length => ?_,
    fun bs bs' dest src length r ends => ends.ok_iff⟩
  · obtain ⟨r, m', served, -, ends⟩ := m.serve_copy_ends dest src length
    exact ⟨r, m', served, ends⟩
  · obtain ⟨s', stepped, left⟩ := Session.step_access held (.memory (.copy dest src length))
    obtain ⟨r, contents, served, size, ends⟩ := m.toMemory.serve_copy_ends dest src length
    have accessed : m.access (.memory (.copy dest src length)) =
        (MemoryRequest.answer (fun _ => .nothing) r, m.put contents) := by
      rw [LinearMemory.access, served]
    rw [accessed] at stepped left
    exact ⟨r, m.put contents, s', stepped, left, m.limit_put contents, m.plain_put size ▸ ends⟩
  · have code := imported.code (f := .primitive .memcpyBig) named
      (HostFunction.primitive_mem_set .memcpyBig)
    have found : (image.context .guest (image.callee depth .embedder)).memoryIn s = some m := by
      simp [ContextIn.memoryIn, Image.context, exported, held]
    obtain ⟨r, m', copied, limit, ends⟩ := Primitive.startAt_copy found dest src length
    refine ⟨r, m', ?_, limit, ends⟩
    rw [Image.callAs_host code]
    change ((Primitive.copy _ dest src length >>= fun _ => pure []).startAt s) = _
    rw [Run.startAt_bind, copied]
    cases r <;> rfl

def copierModule : Wasm.Module where
  imports := [⟨HostFunction.env, "emscripten_memcpy_big", .func ⟨[.i32, .i32, .i32], []⟩⟩]
  memory := some { min := 1 }
  exports := [⟨Image.memoryName, .memory, 0⟩]
  maxDepth := 10

def copierImage : Image where
  code := [.host (HostFunction.primitive .memcpyBig).type (.primitive .memcpyBig)]
  exports := copierModule.exports
  maxDepth := copierModule.maxDepth

theorem hasImport_copierImage :
    copierImage.HasImport 0 ⟨HostFunction.env, "emscripten_memcpy_big"⟩ :=
  Image.hasImport_only (m := copierModule) (f := .primitive .memcpyBig) rfl (.head _)
    (HostFunction.primitive_mem_set .memcpyBig _)

def countingPage : LinearMemory :=
  (LinearMemory.new 1 none).put ((Memory.zeros pageSize).store 0 [1, 2, 3, 4])

def countingStore : Store where
  memory := some countingPage
  host := { config := {}, origin := 0 }

theorem PlainMemory.copy_moves_overlapping :
    Session.memory? [some ⟨copierImage, countingStore⟩] 0 = some countingPage ∧
    (∃ r m' s', Session.step [some ⟨copierImage, countingStore⟩] (.memory 0 (.copy 1 0 3)) =
        .done (MemoryRequest.answer (fun _ => .nothing) r, s') ∧
      s'.memory? 0 = some m' ∧ m'.limit = countingPage.limit ∧
      countingPage.plain.CopyEnds 1 0 3 r m'.plain) ∧
    ∃ m', (copierImage.callAs .guest 1 0 [.i32 1, .i32 0, .i32 3]).startAt countingStore =
        .done (.ok [], { countingStore with memory := some m' }) ∧
      countingPage.plain.CopyEnds 1 0 3 (.ok ()) m'.plain := by
  have held : Session.memory? [some ⟨copierImage, countingStore⟩] 0 = some countingPage := rfl
  have size : countingPage.plain.length = 65536 := Memory.length_plain _
  obtain ⟨r, m', called, -, ends⟩ := copy_moves.2.2.1 copierImage 0 _ (.head _)
    hasImport_copierImage rfl countingStore countingPage rfl 0 1 0 3
  have copied : r = .ok () := (copy_moves.2.2.2 _ _ _ _ _ _ ends).mpr (by simp [size])
  subst copied
  exact ⟨held, copy_moves.2.1 _ 0 countingPage held 1 0 3, m', called, ends⟩

example : (countingPage.copyWithin 1 0 3).toOption.map (·.slice 0 5) = some [1, 1, 2, 3, 0] := rfl

end GuestHost
