import GuestHost.Proofs.FatalPolicy
import GuestHost.Proofs.PlainMemory

/-!
Sessions that deal with the memory of a guest. Main statement: buffers of fixed size and the memories
of guests answer and become what plain lists of bytes do, which keep the laws of such lists.
-/

namespace GuestHost

def Access.step (guest : Nat) : Access → Step
  | memory q => .memory guest q
  | pages => .pages guest
  | grow delta => .grow guest delta

def Access.steps (guest : Nat) (as : List Access) : List Step := as.map (step guest)

namespace Session

variable {s : Session} {i : Nat} {m : LinearMemory}

def memory? (s : Session) (i : Nat) : Option LinearMemory := (s.guest? i).bind (·.memory?)

theorem memory?_setMemory {g : Guest} (exported : g.memory? = some m) (m' : LinearMemory) :
    (g.setMemory m').memory? = some m' := by
  have exports : g.image.exportsMemory = true := by
    apply Decidable.byContradiction
    intro hidden
    simp [Guest.memory?, hidden] at exported
  simp [Guest.memory?, Guest.setMemory, exports]

theorem step_access (found : s.memory? i = some m) (a : Access) :
    ∃ s', s.step (a.step i) = .done ((m.access a).1, s') ∧
      s'.memory? i = some (m.access a).2 := by
  obtain ⟨g, guest, exported⟩ := Option.bind_eq_some_iff.mp found
  refine ⟨s.set i (some (g.setMemory (m.access a).2)), ?_, ?_⟩
  · have through : s.step (a.step i) = s.onMemory i (·.access a) := by
      cases a <;> rfl
    rw [through, onMemory, onGuest, guest]
    dsimp only
    rw [exported]
    rfl
  · rw [memory?, guest?_set guest, if_pos rfl]
    exact memory?_setMemory exported _

theorem play_access (w : World) (t : Trace) (found : s.memory? i = some m) (as : List Access) :
    (play w s t (Access.steps i as)).replies.map (·.1) = (m.accessAll as).1 ∧
      ∃ s', (play w s t (Access.steps i as)).ending = .value s' ∧
        s'.memory? i = some (m.accessAll as).2 := by
  induction as generalizing s m t with
  | nil => exact ⟨rfl, s, rfl, found⟩
  | cons a as ih =>
    obtain ⟨s', stepped, found'⟩ := step_access found a
    obtain ⟨replies, s'', ending, found''⟩ := ih t found'
    rw [Access.steps, List.map_cons, play, stepped]
    exact ⟨congrArg (_ :: ·) replies, s'', ending, found''⟩

end Session

namespace PlainMemory

/-- What holds of a plain list of bytes that serves requests. A request fails exactly when one of its
ranges ends beyond the size, whatever the length of the range, with the first such range as the
reason, and then nothing changes. -/
structure Lawful (bs : PlainMemory) : Prop where
  failed (q : MemoryRequest) (e : HostError) : (bs.serve q).1 = .hostError e ↔
    ∃ before r after, q.spans = before ++ r :: after ∧
      (∀ x ∈ before, x.offset + x.length ≤ bs.length) ∧ bs.length < r.offset + r.length ∧
      e = .outOfBounds r.offset r.length bs.length
  kept (q : MemoryRequest) (e : HostError) : (bs.serve q).1 = .hostError e → (bs.serve q).2 = bs
  size (q : MemoryRequest) : (bs.serve q).2.length = bs.length
  outside (q : MemoryRequest) (i : Nat) :
    (∀ r ∈ q.spans.head?, i < r.offset ∨ r.offset + r.length ≤ i) →
      (bs.serve q).2[i]? = bs[i]?
  read (offset length i : Nat) : offset + length ≤ bs.length →
    ∃ bytes, bs.serve (.read offset length) = (.bytes bytes, bs) ∧
      bytes[i]? = if i < length then bs[offset + i]? else none
  write (offset : Nat) (bytes : List UInt8) (i : Nat) : offset + bytes.length ≤ bs.length →
    ∃ bs', bs.serve (.write offset bytes) = (.nothing, bs') ∧
      bs'[i]? = if offset ≤ i ∧ i < offset + bytes.length then bytes[i - offset]? else bs[i]?
  copy (dest src length i : Nat) : dest + length ≤ bs.length → src + length ≤ bs.length →
    ∃ bs', bs.serve (.copy dest src length) = (.nothing, bs') ∧
      bs'[i]? = if dest ≤ i ∧ i < dest + length then bs[src + (i - dest)]? else bs[i]?
  lowFirst (offset : Nat) (w : BitVec 32) :
    bs.serve (.writeU32 offset w) = bs.serve (.write offset (digits 4 w.toNat))
  word (offset : Nat) (w : BitVec 32) : offset + 4 ≤ bs.length →
    (bs.serveAll [.writeU32 offset w, .readU32 offset]).1 = [.nothing, .word w]
  halves (offset : Nat) (w : BitVec 64) : offset + 8 ≤ bs.length →
    (bs.serve (.writeU64 offset w)).2 = (bs.serveAll [.writeU32 offset (w.setWidth 32),
      .writeU32 (offset + 4) ((w >>> 32).setWidth 32)]).2
  grow (limit delta i : Nat) : (bs.access limit (.grow delta)).2[i]? =
    if i < bs.length then bs[i]?
    else if bs.length / pageSize + delta ≤ limit ∧ i < bs.length + delta * pageSize then some 0
    else none

variable {bs : PlainMemory} {q : MemoryRequest}

theorem serve_one {offset length : Nat} (spans : q.spans = [⟨offset, length⟩])
    (fits : offset + length ≤ bs.length) : bs.serve q = (bs.answer q, bs.change q) := by
  apply serve_of_fits
  rw [spans, beyond?_cons_of_le fits]
  rfl

theorem not_hostError_answer (bs : PlainMemory) (q : MemoryRequest) (e : HostError) :
    bs.answer q ≠ .hostError e := by
  cases q <;> exact nofun

theorem beyond?_eq_some_iff {spans : List Span} {r : Span} :
    bs.beyond? spans = some r ↔ ∃ before after, spans = before ++ r :: after ∧
      (∀ x ∈ before, x.offset + x.length ≤ bs.length) ∧ bs.length < r.offset + r.length := by
  rw [beyond?, List.find?_eq_some_iff_append]
  simp only [decide_eq_true_eq, Bool.not_eq_eq_eq_not, Bool.not_true, decide_eq_false_iff_not,
    not_lt, exists_and_right]
  grind

theorem failed_iff (bs : PlainMemory) (q : MemoryRequest) (e : HostError) :
    (bs.serve q).1 = .hostError e ↔
      ∃ r, bs.beyond? q.spans = some r ∧ e = .outOfBounds r.offset r.length bs.length := by
  cases first : bs.beyond? q.spans with
  | none =>
    rw [serve_of_fits first]
    exact ⟨fun failed => absurd failed (bs.not_hostError_answer q e), nofun⟩
  | some r =>
    rw [serve_of_beyond first]
    constructor
    · intro failed
      exact ⟨r, rfl, (Reply.hostError.inj failed).symm⟩
    · rintro ⟨r', same, rfl⟩
      cases same
      rfl

theorem read_writeU32 {offset : Nat} (w : BitVec 32) (fits : offset + 4 ≤ bs.length) :
    (bs.serveAll [.writeU32 offset w, .readU32 offset]).1 = [.nothing, .word w] := by
  have size : (bs.overwrite offset (digits 4 w.toNat)).length = bs.length :=
    length_overwrite (by simpa using fits)
  have written : bs.serve (.writeU32 offset w) =
      (.nothing, bs.overwrite offset (digits 4 w.toNat)) := serve_one rfl fits
  have read : (bs.overwrite offset (digits 4 w.toNat)).serve (.readU32 offset) =
      (.word (BitVec.ofNat 32 ((bs.overwrite offset (digits 4 w.toNat)).number offset 4)), _) :=
    serve_one rfl (size ▸ fits)
  have whole : w.toNat % 256 ^ 4 = w.toNat := Nat.mod_eq_of_lt w.isLt
  rw [number_overwrite 4 w.toNat fits, whole, BitVec.ofNat_toNat, BitVec.setWidth_eq] at read
  simp only [serveAll, written, read]

theorem writeU64_eq {offset : Nat} (w : BitVec 64) (fits : offset + 8 ≤ bs.length) :
    (bs.serve (.writeU64 offset w)).2 = (bs.serveAll [.writeU32 offset (w.setWidth 32),
      .writeU32 (offset + 4) ((w >>> 32).setWidth 32)]).2 := by
  have low : digits 4 (w.setWidth 32).toNat = digits 4 w.toNat := by
    rw [BitVec.toNat_setWidth]
    exact digits_mod 4 w.toNat
  have high : digits 4 ((w >>> 32).setWidth 32).toNat = digits 4 (w.toNat / 256 ^ 4) := by
    rw [BitVec.toNat_setWidth, BitVec.toNat_ushiftRight, Nat.shiftRight_eq_div_pow]
    exact digits_mod 4 _
  have both : digits 8 w.toNat = digits 4 w.toNat ++ digits 4 (w.toNat / 256 ^ 4) :=
    digits_add 4 4 w.toNat
  have size : (bs.overwrite offset (digits 4 w.toNat)).length = bs.length :=
    length_overwrite (by rw [length_digits]; omega)
  have whole : bs.serve (.writeU64 offset w) =
      (.nothing, bs.overwrite offset (digits 8 w.toNat)) := serve_one rfl fits
  have first : bs.serve (.writeU32 offset (w.setWidth 32)) =
      (.nothing, bs.overwrite offset (digits 4 (w.setWidth 32).toNat)) :=
    serve_one rfl (by omega)
  have second : (bs.overwrite offset (digits 4 w.toNat)).serve
      (.writeU32 (offset + 4) ((w >>> 32).setWidth 32)) =
        (.nothing, (bs.overwrite offset (digits 4 w.toNat)).overwrite (offset + 4)
          (digits 4 ((w >>> 32).setWidth 32).toNat)) :=
    serve_one rfl (by omega)
  have split := bs.overwrite_append offset (digits 4 w.toNat) (digits 4 (w.toNat / 256 ^ 4))
    (by simpa using fits)
  rw [length_digits] at split
  simp only [serveAll, whole, first, low, second, high, both, split]

theorem getElem?_copy {dest src length : Nat} (room : dest + length ≤ bs.length)
    (source : src + length ≤ bs.length) (i : Nat) :
    (bs.overwrite dest (bs.read src length))[i]? =
      if dest ≤ i ∧ i < dest + length then bs[src + (i - dest)]? else bs[i]? := by
  have size := length_read source
  rw [getElem?_overwrite (by omega), size, getElem?_read]
  grind

theorem getElem?_overwrite_outside {offset i : Nat} {bytes : List UInt8}
    (fits : offset + bytes.length ≤ bs.length)
    (other : i < offset ∨ offset + bytes.length ≤ i) :
    (bs.overwrite offset bytes)[i]? = bs[i]? := by
  rw [getElem?_overwrite fits, if_neg (by omega)]

theorem getElem?_serve_outside {i : Nat}
    (other : ∀ r ∈ q.spans.head?, i < r.offset ∨ r.offset + r.length ≤ i) :
    (bs.serve q).2[i]? = bs[i]? := by
  cases first : bs.beyond? q.spans with
  | some r => rw [serve_of_beyond first]
  | none =>
    have fits {r : Span} (member : r ∈ q.spans) := fits_of_beyond? first member
    rw [serve_of_fits first]
    cases q with
    | size | read | any | readU32 => rfl
    | write => exact getElem?_overwrite_outside (fits (.head _)) (other _ rfl)
    | fill | writeU32 | writeU64 =>
      exact getElem?_overwrite_outside (by simpa using fits (.head _)) (by simpa using other _ rfl)
    | copy dest src length =>
      have source : src + length ≤ bs.length := fits (.tail _ (.head _))
      have room : dest + length ≤ bs.length := fits (.head _)
      have same := length_read source
      exact getElem?_overwrite_outside (by rwa [same]) (by rw [same]; exact other _ rfl)

theorem getElem?_grow (bs : PlainMemory) (limit delta i : Nat) :
    (bs.access limit (.grow delta)).2[i]? =
      if i < bs.length then bs[i]?
      else if bs.length / pageSize + delta ≤ limit ∧ i < bs.length + delta * pageSize then some 0
      else none := by
  rw [access]
  split
  · rename_i granted
    have new (old : ¬ i < bs.length) :
        i - bs.length < delta * pageSize ↔ i < bs.length + delta * pageSize := by omega
    rw [List.getElem?_append, List.getElem?_replicate]
    split
    · rfl
    · rename_i old
      simp only [granted, new old, true_and]
  · rename_i refused
    split
    · rfl
    · rename_i old
      rw [if_neg fun both => refused both.1]
      exact List.getElem?_eq_none (Nat.le_of_not_lt old)

theorem lawful (bs : PlainMemory) : bs.Lawful where
  failed q e := by
    rw [failed_iff]
    simp only [beyond?_eq_some_iff]
    grind
  kept q e failed := by
    obtain ⟨r, first, -⟩ := (bs.failed_iff q e).mp failed
    rw [serve_of_beyond first]
  size := bs.length_serve
  outside q i other := getElem?_serve_outside other
  read offset length i fits := ⟨_, serve_one rfl fits, getElem?_read bs offset length i⟩
  write offset bytes i fits := ⟨_, serve_one rfl fits, getElem?_overwrite fits i⟩
  copy dest src length i room source := by
    refine ⟨_, serve_of_fits ?_, getElem?_copy room source i⟩
    exact (beyond?_cons_of_le room).trans (beyond?_cons_of_le source)
  lowFirst offset w := by
    simp only [serve, MemoryRequest.spans, answer, change, length_digits]
  word _ w fits := read_writeU32 w fits
  halves _ w fits := writeU64_eq w fits
  grow := bs.getElem?_grow

/-- A buffer of fixed size answers any requests as the list of its bytes does, and holds the bytes
that the list has become. So does the memory that a guest exports, in a session that asks anything of
it and lets it grow in between. Any list of bytes is lawful. -/
theorem refined :
    (∀ (m : Memory) (qs : List MemoryRequest),
      Memory.seen (MemoryRequest.serveAll m qs) = m.plain.serveAll qs) ∧
    (∀ (w : World) (s : Session) (t : Trace) (i : Nat) (m : LinearMemory) (as : List Access),
      s.memory? i = some m →
        ((Session.play w s t (Access.steps i as)).replies.map (·.1) =
          (m.plain.accessAll m.limit as).1 ∧
        ∃ s' m', (Session.play w s t (Access.steps i as)).ending = .value s' ∧
          s'.memory? i = some m' ∧ m'.plain = (m.plain.accessAll m.limit as).2)) ∧
    ∀ bs : PlainMemory, bs.Lawful := by
  refine ⟨Memory.seen_serveAll, fun w s t i m as found => ?_, lawful⟩
  obtain ⟨replies, s', ending, left⟩ := Session.play_access w t found as
  rw [m.plain_accessAll]
  exact ⟨replies, s', _, ending, left, rfl⟩

def pageGuest : Guest where
  image := { code := [], exports := [⟨Image.memoryName, .memory, 0⟩], maxDepth := 10 }
  store := { memory := some (LinearMemory.new 1 none), host := { config := {}, origin := 0 } }

def pageAccesses : List Access :=
  [.memory (.writeU32 0 257), .memory (.readU32 1), .memory (.read 65535 2), .grow 1, .pages]

theorem refined_page : Session.memory? [some pageGuest] 0 = some (LinearMemory.new 1 none) ∧
    (Session.play Surroundings.still.world [some pageGuest] []
      (Access.steps 0 pageAccesses)).replies.map (·.1) =
        ((LinearMemory.new 1 none).plain.accessAll (LinearMemory.new 1 none).limit
          pageAccesses).1 :=
  have found : Session.memory? [some pageGuest] 0 = some (LinearMemory.new 1 none) := rfl
  ⟨found, (refined.2.1 Surroundings.still.world [some pageGuest] [] 0 _ _ found).1⟩

/-- Words may overlap; what is read over the end of the page is refused. -/
example : (Session.play Surroundings.still.world [some pageGuest] []
    (Access.steps 0 pageAccesses)).replies.map (·.1) =
      [.nothing, .word 1, .hostError (.outOfBounds 65535 2 65536), .size 1, .size 2] :=
  rfl

end PlainMemory

end GuestHost
