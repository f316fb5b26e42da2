import GuestHost.Proofs.Linked
import GuestHost.Proofs.MemorySessions
import GuestHost.Proofs.Routes
import Mathlib.Algebra.Order.Floor.Div
import Mathlib.Data.List.MinMax

/-!
Growth of the heap. Main statement: a request is granted exactly when the pages that cover it are
within the limit, and then the memory has just these pages, or as many as before; so after any
requests it has as many as the largest one that was granted needs, in whatever order they came.
-/

namespace GuestHost

open Wasm (Val)

namespace LinearMemory

def extended (m : LinearMemory) (pages : Nat) : LinearMemory :=
  { m with
    toMemory := ⟨max m.pages pages * pageSize, m.touched, by
      have touched := m.touched_le
      rw [m.size_eq] at touched
      exact touched.trans (Nat.mul_le_mul_right _ (Nat.le_max_left ..))⟩
    pages := max m.pages pages
    size_eq := rfl }

variable (m : LinearMemory)

@[simp] theorem pages_extended (pages : Nat) : (m.extended pages).pages = max m.pages pages := rfl

@[simp] theorem limit_extended (pages : Nat) : (m.extended pages).limit = m.limit := rfl

theorem size_extended (pages : Nat) :
    (m.extended pages).size = max m.pages pages * pageSize := rfl

theorem extended_extended (pages more : Nat) :
    (m.extended pages).extended more = m.extended (max pages more) := by
  simp [extended, Nat.max_assoc]

theorem extended_of_le {pages : Nat} (covered : pages ≤ m.pages) : m.extended pages = m := by
  rcases m with ⟨⟨size, touched, touched_le⟩, held, limit, size_eq⟩
  have same : max held pages = held := Nat.max_eq_left covered
  dsimp only at size_eq
  subst size_eq
  simp [extended, same]

theorem extended_zero : m.extended 0 = m := m.extended_of_le (Nat.zero_le _)

theorem grow_eq (delta : Nat) :
    m.grow delta = if m.pages + delta ≤ m.limit then some (m.extended (m.pages + delta))
      else none := by
  simp [grow, extended, m.size_eq, Nat.add_mul]

theorem plain_extended {pages : Nat} (reach : max m.pages pages ≤ m.limit) :
    (m.extended pages).plain =
      m.plain ++ List.replicate ((m.extended pages).size - m.size) 0 := by
  have whole : m.pages + (pages - m.pages) = max m.pages pages := by omega
  have grown : m.grow (pages - m.pages) = some (m.extended pages) := by
    rw [grow_eq, whole, if_pos reach, ← extended_extended, m.extended_of_le le_rfl]
  have more : (m.extended pages).size - m.size = (pages - m.pages) * pageSize := by
    rw [size_of_grow grown, Nat.add_sub_cancel_left]
  rw [plain_of_grow grown, more]

/-- What comes of the request for a heap of `requested` bytes: the answer, and the memory then. -/
inductive HeapEnds (requested : Nat) : BitVec 32 → LinearMemory → Prop
  | granted {m' : LinearMemory} (within : requested ⌈/⌉ pageSize ≤ m.limit)
      (pages : m'.pages = max m.pages (requested ⌈/⌉ pageSize)) (covers : requested ≤ m'.size)
      (bytes : m'.plain = m.plain ++ List.replicate (m'.size - m.size) 0)
      (limit : m'.limit = m.limit) : HeapEnds requested 1 m'
  | refused (beyond : m.limit < requested ⌈/⌉ pageSize) : HeapEnds requested 0 m

/-- The answer to a request, which depends on the limit alone. -/
def heapAnswer (requested : Nat) : BitVec 32 :=
  if requested ⌈/⌉ pageSize ≤ m.limit then 1 else 0

def afterRequest (requested : Nat) : LinearMemory :=
  if requested ⌈/⌉ pageSize ≤ m.limit then m.extended (requested ⌈/⌉ pageSize) else m

theorem pages_ceilDiv_le_iff {bytes pages : Nat} :
    bytes ⌈/⌉ pageSize ≤ pages ↔ bytes ≤ pages * pageSize := by
  rw [ceilDiv_le_iff_le_mul (by decide), Nat.mul_comm]

theorem heapEnds {m : LinearMemory} (reach : m.pages ≤ m.limit) (requested : Nat) :
    m.HeapEnds requested (m.heapAnswer requested) (m.afterRequest requested) := by
  unfold heapAnswer afterRequest
  split
  · rename_i within
    refine .granted within rfl ?_ (m.plain_extended (Nat.max_le.mpr ⟨reach, within⟩)) rfl
    rw [size_extended, ← pages_ceilDiv_le_iff]
    exact Nat.le_max_right ..
  · rename_i beyond
    exact .refused (Nat.lt_of_not_le beyond)

theorem limit_afterRequest (requested : Nat) : (m.afterRequest requested).limit = m.limit := by
  unfold afterRequest
  split <;> rfl

theorem pages_afterRequest_le {m : LinearMemory} (reach : m.pages ≤ m.limit) (requested : Nat) :
    (m.afterRequest requested).pages ≤ (m.afterRequest requested).limit := by
  rw [limit_afterRequest]
  unfold afterRequest
  split
  · rename_i within
    exact Nat.max_le.mpr ⟨reach, within⟩
  · exact reach

theorem size_le_afterRequest (requested : Nat) : m.size ≤ (m.afterRequest requested).size := by
  unfold afterRequest
  split
  · rw [size_extended, m.size_eq]
    exact Nat.mul_le_mul_right _ (Nat.le_max_left ..)
  · exact le_rfl

theorem afterRequest_self (requested : Nat) :
    (m.afterRequest requested).afterRequest requested = m.afterRequest requested := by
  by_cases within : requested ⌈/⌉ pageSize ≤ m.limit
  · have first : m.afterRequest requested = m.extended (requested ⌈/⌉ pageSize) := if_pos within
    rw [first, afterRequest, limit_extended, if_pos within, extended_extended, Nat.max_self]
  · have first : m.afterRequest requested = m := if_neg within
    rw [first, first]

def grantedPages (requests : List Nat) : List Nat :=
  (requests.map fun bytes => (bytes ⌈/⌉ pageSize : Nat)).filter (· ≤ m.limit)

theorem foldl_afterRequest (requests : List Nat) :
    requests.foldl afterRequest m = m.extended ((m.grantedPages requests).foldr max 0) := by
  induction requests generalizing m with
  | nil => exact m.extended_zero.symm
  | cons requested requests ih =>
    have same : (m.afterRequest requested).grantedPages requests = m.grantedPages requests := by
      rw [grantedPages, grantedPages, limit_afterRequest]
    rw [List.foldl_cons, ih, same]
    by_cases within : requested ⌈/⌉ pageSize ≤ m.limit
    · have first : m.afterRequest requested = m.extended (requested ⌈/⌉ pageSize) := if_pos within
      have granted : m.grantedPages (requested :: requests) =
          requested ⌈/⌉ pageSize :: m.grantedPages requests := by
        simp [grantedPages, within]
      rw [first, extended_extended, granted, List.foldr_cons]
    · have first : m.afterRequest requested = m := if_neg within
      have refused : m.grantedPages (requested :: requests) = m.grantedPages requests := by
        simp [grantedPages, within]
      rw [first, refused]

end LinearMemory

theorem Action.Ends.bind {α β : Type} {x : Action α} {f : α → Action β} {a : α} {b : β}
    (first : x.Ends a) (next : (f a).Ends b) : (x.bind f).Ends b := by
  induction x with
  | done a' =>
    cases first
    exact next
  | ask q k ih => exact fun answer => ih answer (first answer)
  | exit status => exact absurd first id

/-- A run that ends so goes on from the store that it left. -/
theorem Run.ends_startAt_bind {α β : Type} {x : Run α} {f : α → Run β} {s s' : Store} {a : α}
    {r : Except Stop β × Store} (first : (x.startAt s).Ends (.ok a, s'))
    (next : ((f a).startAt s').Ends r) : ((x >>= f).startAt s).Ends r := by
  rw [startAt_bind]
  exact first.bind next

namespace Primitive

variable {c : Context} {s : Store} {m : LinearMemory}

theorem pages_add_missingPages {requested : Nat} (larger : m.size < requested) :
    m.pages + missingPages m requested = requested ⌈/⌉ pageSize := by
  have rounded : requested + pageSize - 1 =
      m.pages * pageSize + (requested - m.size + pageSize - 1) := by
    have positive : 0 < pageSize := by decide
    have size := m.size_eq
    omega
  rw [Nat.ceilDiv_eq_add_pred_div, rounded, missingPages, Nat.mul_comm,
    Nat.mul_add_div (by decide)]

theorem ends_resize (found : c.memoryIn s = some m) (growth : s.host.config.heapGrowth = true)
    (reach : m.pages ≤ m.limit) (requested : BitVec 32) :
    ((resize c requested).startAt s).Ends (.ok (m.heapAnswer requested.toNat),
      { s with memory := some (m.afterRequest requested.toNat) }) := by
  have held := ContextIn.memory_of_memoryIn found
  rw [resize, Run.startAt_bind, Run.startAt_host, Action.done_bind]
  simp only [growth, Bool.not_true, Bool.false_eq_true, if_false]
  rw [Run.startAt_bind, ContextIn.startAt_memory, found, Action.done_bind]
  dsimp only
  by_cases covered : requested.toNat ≤ m.size
  · have enough : requested.toNat ⌈/⌉ pageSize ≤ m.pages := by
      rwa [LinearMemory.pages_ceilDiv_le_iff, ← m.size_eq]
    have within := enough.trans reach
    rw [if_pos covered, LinearMemory.heapAnswer, if_pos within, LinearMemory.afterRequest,
      if_pos within, m.extended_of_le enough, ← held]
    rfl
  · rw [if_neg covered, m.grow_eq, pages_add_missingPages (Nat.lt_of_not_le covered)]
    by_cases within : requested.toNat ⌈/⌉ pageSize ≤ m.limit
    · simp only [LinearMemory.heapAnswer, LinearMemory.afterRequest, if_pos within]
      simp [Run.startAt_bind, Run.startAt_map, Action.Ends]
    · simp only [LinearMemory.heapAnswer, LinearMemory.afterRequest, if_neg within, ← held]
      simp [Run.startAt_map, Action.Ends]

end Primitive

namespace Image

def requestHeap (i : Image) (depth j : Nat) (requested : BitVec 32) : Run (List Val) :=
  i.callAs .guest (depth + 1) j [.i32 requested]

variable {i : Image} {j : Nat} {s : Store} {m : LinearMemory}

theorem ends_requestHeap
    (imported : i.HasImport j ⟨HostFunction.env, "emscripten_resize_heap"⟩)
    (exported : i.exportsMemory = true) (held : s.memory = some m)
    (growth : s.host.config.heapGrowth = true) (reach : m.pages ≤ m.limit) (depth : Nat)
    (requested : BitVec 32) :
    ((i.requestHeap depth j requested).startAt s).Ends (.ok [.i32 (m.heapAnswer requested.toNat)],
      { s with memory := some (m.afterRequest requested.toNat) }) := by
  have code := imported.code (f := .primitive .resizeHeap) (.head _)
    (HostFunction.primitive_mem_set .resizeHeap)
  have found : (i.context .guest (i.callee depth .embedder)).memoryIn s = some m := by
    simp [ContextIn.memoryIn, context, exported, held]
  rw [requestHeap, callAs_host code]
  exact Run.ends_startAt_bind (Primitive.ends_resize found growth reach requested) rfl

theorem ends_requestHeaps
    (imported : i.HasImport j ⟨HostFunction.env, "emscripten_resize_heap"⟩)
    (exported : i.exportsMemory = true) (held : s.memory = some m)
    (growth : s.host.config.heapGrowth = true) (reach : m.pages ≤ m.limit) (depth : Nat)
    (requests : List (BitVec 32)) :
    ((requests.mapM (i.requestHeap depth j)).startAt s).Ends
      (.ok (requests.map fun r => [.i32 (m.heapAnswer r.toNat)]),
        { s with memory := some ((requests.map (·.toNat)).foldl LinearMemory.afterRequest m) }) := by
  induction requests generalizing s m with
  | nil =>
    rw [List.map_nil, List.map_nil, List.foldl_nil, ← held]
    rfl
  | cons requested requests ih =>
    have first := ends_requestHeap imported exported held growth reach depth requested
    have rest := ih (s := { s with memory := some (m.afterRequest requested.toNat) }) rfl growth
      (LinearMemory.pages_afterRequest_le reach _)
    simp only [LinearMemory.heapAnswer, m.limit_afterRequest] at rest
    rw [List.mapM_cons]
    refine Run.ends_startAt_bind first ?_
    exact Run.ends_startAt_bind rest rfl

end Image

namespace LinearMemory

theorem grantedPages_le (m : LinearMemory) (requests : List Nat) :
    (m.grantedPages requests).foldr max 0 ≤ m.limit := by
  apply List.max_le_of_forall_le
  intro pages granted
  simpa using (List.mem_filter.mp granted).2

theorem foldl_afterRequest_perm (m : LinearMemory) {requests reordered : List Nat}
    (same : requests.Perm reordered) :
    requests.foldl afterRequest m = reordered.foldl afterRequest m := by
  have granted : (m.grantedPages requests).Perm (m.grantedPages reordered) :=
    (same.map _).filter _
  rw [foldl_afterRequest, foldl_afterRequest, granted.foldr_eq]

/-- Requests of guest code for the heap, where it may grow: one of them, the same one again, and any
of them in any order. -/
theorem heap_grows (i : Image) (j depth : Nat) (s : Store) (m : LinearMemory)
    (imported : i.HasImport j ⟨HostFunction.env, "emscripten_resize_heap"⟩)
    (exported : i.exportsMemory = true) (held : s.memory = some m)
    (growth : s.host.config.heapGrowth = true) (reach : m.pages ≤ m.limit) :
    (∀ requested : BitVec 32, ∃ answer m',
      ((i.requestHeap depth j requested).startAt s).Ends
        (.ok [.i32 answer], { s with memory := some m' }) ∧
      m.HeapEnds requested.toNat answer m' ∧ m.size ≤ m'.size ∧
      ((i.requestHeap depth j requested).startAt { s with memory := some m' }).Ends
        (.ok [.i32 answer], { s with memory := some m' })) ∧
    ∀ requests : List (BitVec 32), ∃ m',
      ((requests.mapM (i.requestHeap depth j)).startAt s).Ends
        (.ok (requests.map fun r => [.i32 (m.heapAnswer r.toNat)]),
          { s with memory := some m' }) ∧
      m'.pages = max m.pages ((m.grantedPages (requests.map (·.toNat))).foldr max 0) ∧
      m'.plain = m.plain ++ List.replicate (m'.size - m.size) 0 ∧ m'.limit = m.limit ∧
      ∀ reordered : List (BitVec 32), requests.Perm reordered → ∃ answers,
        ((reordered.mapM (i.requestHeap depth j)).startAt s).Ends
          (.ok answers, { s with memory := some m' }) := by
  constructor
  · intro requested
    have first := Image.ends_requestHeap imported exported held growth reach depth requested
    have again := Image.ends_requestHeap imported exported
      (s := { s with memory := some (m.afterRequest requested.toNat) }) rfl growth
      (pages_afterRequest_le reach _) depth requested
    rw [afterRequest_self, heapAnswer, limit_afterRequest] at again
    exact ⟨_, _, first, heapEnds reach _, m.size_le_afterRequest _, again⟩
  · intro requests
    have ends := Image.ends_requestHeaps imported exported held growth reach depth requests
    have left := m.foldl_afterRequest (requests.map (·.toNat))
    refine ⟨_, ends, ?_, ?_, ?_, fun reordered same => ?_⟩
    · rw [left, pages_extended]
    · rw [left, m.plain_extended (Nat.max_le.mpr ⟨reach, m.grantedPages_le _⟩)]
    · rw [left, limit_extended]
    · rw [m.foldl_afterRequest_perm (same.map _)]
      exact ⟨_, Image.ends_requestHeaps imported exported held growth reach depth reordered⟩

def heapModule : Wasm.Module where
  imports := [⟨HostFunction.env, "emscripten_resize_heap", .func ⟨[.i32], [.i32]⟩⟩]
  memory := some { min := 1, max := some 3 }
  exports := [⟨Image.memoryName, .memory, 0⟩]
  maxDepth := 10

def heapImage : Image where
  code := [.host (HostFunction.primitive .resizeHeap).type (.primitive .resizeHeap)]
  exports := heapModule.exports
  maxDepth := heapModule.maxDepth

def heapStore : Store where
  memory := some (LinearMemory.new 1 (some 3))
  host := { config := { heapGrowth := true }, origin := 0 }

/-- One byte more than a page needs a second one; the whole address space is refused; three pages
are all there may be. -/
theorem heap_grows_three : ∃ m',
    (([65537, 4294967295, 196608].mapM (heapImage.requestHeap 0 0)).startAt heapStore).Ends
      (.ok [[.i32 1], [.i32 0], [.i32 1]], { heapStore with memory := some m' }) ∧
    m'.pages = 3 := by
  have imported : heapImage.HasImport 0 ⟨HostFunction.env, "emscripten_resize_heap"⟩ :=
    Image.hasImport_only (m := heapModule) (f := .primitive .resizeHeap) rfl (.head _)
      (HostFunction.primitive_mem_set .resizeHeap _)
  obtain ⟨m', ends, pages, -⟩ := (heap_grows heapImage 0 0 heapStore (LinearMemory.new 1 (some 3))
    imported rfl rfl rfl (by decide)).2 [65537, 4294967295, 196608]
  have answers : [65537, 4294967295, 196608].map (fun r : BitVec 32 =>
      [Val.i32 ((LinearMemory.new 1 (some 3)).heapAnswer r.toNat)]) =
        [[.i32 1], [.i32 0], [.i32 1]] := by
    decide
  rw [answers] at ends
  exact ⟨m', ends, pages.trans (by decide)⟩

end LinearMemory

end GuestHost
