import GuestHost.Proofs.IndirectCall
import GuestHost.Proofs.Reach

/-!
The ways to a host function. Guest code can call it, or can call a trampoline on a table slot that
holds it; or an embedder can call an export that stands for it. The last two give the function no
exports to look at, and that shows exactly in the calls that look for one.
-/

namespace GuestHost

open Wasm (Val)

variable {α β : Type}

def Ending.map (f : α → β) : Ending α → Ending β
  | value a => value (f a)
  | exited status => exited status

namespace Action

/-- How a computation ends in a world that does not listen to the log. -/
def ending (x : Action α) (w : World) (t : Trace) : Ending α := (x.run w.deaf t).1

theorem ending_done_bind (x : Action α) (f : α → β) (w : World) (t : Trace) :
    (x.bind fun a => done (f a)).ending w t = (x.ending w t).map f := by
  unfold ending
  rw [run_bind]
  rcases x.run w.deaf t with ⟨_ | _, _⟩ <;> rfl

theorem ending_log (r : Log.Record) (x : Action α) (w : World) (t : Trace) :
    (ask (.log r) fun _ => x).ending w t = x.ending w t := by
  obtain ⟨e, u, left, right⟩ := x.run_shift (w.deaf_log t r)
  simp only [ending, run, right]
  exact congrArg Prod.fst left

theorem Ends.ending {x : Action α} {a : α} (h : x.Ends a) (w : World) (t : Trace) :
    x.ending w t = .value a := h.run w.deaf t

theorem Always.ending {x : Action α} {P : α → Prop} (h : x.Always P) {w : World} {t : Trace} {a : α}
    (ends : x.ending w t = .value a) : P a :=
  h.of_run (Prod.ext ends rfl)

end Action

theorem Guest.eq_of_outcome {r : Except Stop (List Val)} {stop : Stop}
    (same : outcome r = .error ⟨.call, .stopped stop⟩) : r = .error stop := by
  unfold outcome at same
  split at same
  · cases same
    rfl
  · split at same
    · cases same
    · cases same

namespace HostFunction

/-- The call looks for an export, and it does not end as it would for want of one. -/
def Needs (f : HostFunction) (args : List Val) (s : Store)
    (direct : Ending (Except Stop (List Val) × Store)) : Prop :=
  f.looks s args = true ∧ direct ≠ .value (.error (.host (f.missing args)), s)

variable {f : HostFunction} {args : List Val} {s : Store} {alone c : Context} {w : World}
  {t : Trace}

theorem ending_alone_eq_iff (memory : alone.memoryExported = false)
    (table : alone.tableExported = false) :
    ((f.run alone args).startAt s).ending w t = ((f.run c args).startAt s).ending w t ↔
      ¬ f.Needs args s (((f.run c args).startAt s).ending w t) := by
  cases looking : f.looks s args with
  | false => simp [Needs, looking, startAt_run_of_not_looks looking alone c]
  | true =>
    rw [(ends_run_of_looks looking memory table).ending w t]
    simp [Needs, looking, eq_comm]

end HostFunction

theorem Image.callAs_host {i : Image} {func : Nat} {f : HostFunction}
    (imported : i.code[func]? = some (.host f.type f)) (caller : Caller) (depth : Nat)
    (args : List Val) : i.callAs caller (depth + 1) func args =
      f.run (i.context caller (i.callee depth .embedder)) args :=
  i.callIn_host imported caller depth args

namespace Guest

def callDirect (g : Guest) (depth j : Nat) (args : List Val) :
    Action (Except Stop (List Val) × Store) :=
  (g.image.callAs .guest (depth + 1) j args).startAt g.store

def callSlot (g : Guest) (depth k : Nat) (slot : BitVec 32) (args : List Val) :
    Action (Except Stop (List Val) × Store) :=
  (g.image.callAs .guest (depth + 2) k (.i32 slot :: args)).startAt g.store

def told (g : Guest) (x : Except Stop (List Val) × Store) :
    Except GuestError (List (BitVec 64)) × Guest :=
  (outcome x.1, { g with store := x.2 })

variable {g : Guest} {f : HostFunction} {args : List Val} {j : Nat}

/-- A call of an export runs its function without a caller that has exports. -/
theorem ending_call (imported : g.image.code[j]? = some (.host f.type f)) {name : String}
    {words : List (BitVec 64)} (prepared : g.prepare name words = .ok (j, args)) (w : World)
    (past : Trace) :
    (g.call name words).ending w past = (((f.run (g.image.context .embedder
      (g.image.callee g.image.maxDepth .embedder)) args).startAt g.store).ending w past).map
        g.told := by
  rw [← Action.ending_done_bind]
  have entered : g.image.call .embedder j args = f.run (g.image.context .embedder
      (g.image.callee g.image.maxDepth .embedder)) args :=
    Image.callAs_host imported .embedder g.image.maxDepth args
  simp only [call_eq, prepared, entered]
  rfl

/-- A call through the table runs the function of the slot without a caller that has exports. -/
theorem ending_callSlot (imported : g.image.code[j]? = some (.host f.type f)) {t : Trampoline}
    {k : Nat} (bound : g.image.code[k]? = some (.host t.type (.trampoline t)))
    (type : f.type = t.targetType) (types : args.map Val.type = t.targetType.params)
    (exported : g.image.exportsTable = true) {table : Array (Option Nat)}
    (held : g.store.table = some table) {slot : BitVec 32}
    (entry : table[slot.toNat]? = some (some j))
    (resolving : g.store.host.config.indirectCalls = .resolve) (depth : Nat) (w : World)
    (past : Trace) :
    (g.callSlot depth k slot args).ending w past =
      ((f.run (g.image.context .embedder (g.image.callee depth .embedder)) args).startAt
        g.store).ending w past := by
  have seen : (g.image.context .guest (g.image.callee (depth + 1) .embedder)).tableExported =
      true := by
    simp [Image.context, exported]
  have lookup := Trampoline.startAt_resolve seen held slot.toNat
  rw [entry] at lookup
  have target := g.image.callee_host imported depth .embedder
  have entered : g.image.callAs .guest (depth + 2) k (.i32 slot :: args) =
      t.run (g.image.context .guest (g.image.callee (depth + 1) .embedder)) (.i32 slot :: args) :=
    Image.callAs_host (f := .trampoline t) bound .guest (depth + 1) (.i32 slot :: args)
  rw [callSlot, entered, Trampoline.startAt_run_found resolving lookup target, Action.ending_log,
    t.dispatch_of_type type types]

theorem eq_of_told {r : Ending (Except Stop (List Val) × Store)} {stop : Stop}
    (same : r.map g.told = .value (g.told (.error stop, g.store))) :
    r = .value (.error stop, g.store) := by
  cases r with
  | exited status => cases same
  | value x =>
    rw [Ending.map, Ending.value.injEq, told, told, Prod.mk.injEq, Guest.mk.injEq] at same
    exact congrArg Ending.value (Prod.ext (eq_of_outcome same.1) same.2.2)

end Guest

namespace HostFunction

variable {f : HostFunction} {args : List Val} {g : Guest} {j : Nat}

theorem needs_iff (imported : g.image.code[j]? = some (.host f.type f))
    (plain : ∀ t, f ≠ .trampoline t) (exported : g.image.exportsMemory = true)
    (held : g.store.memory.isSome) (depth : Nat) (w : World) (past : Trace) :
    f.Needs args g.store ((g.callDirect depth j args).ending w past) ↔
      f.looks g.store args = true := by
  constructor
  · exact And.left
  · intro looking
    refine ⟨looking, fun lacks => ?_⟩
    have missing : f.missing args = .noMemory := by
      cases f with
      | trampoline t => exact absurd rfl (plain t)
      | primitive | syscall | wasi => rfl
    rw [Guest.callDirect, Image.callAs_host imported, missing] at lacks
    have reach : ((g.image.context .guest (g.image.callee depth .embedder)).memoryIn
        g.store).isSome := by
      simpa [ContextIn.memoryIn, Image.context, exported] using held
    exact ((f.run_provided _ args plain g.store reach).ending lacks).1 rfl

/-- A function of the host does the same on all ways to it unless it needs an export of its caller.
One that calls no other function needs one as soon as it looks for it. -/
theorem routes_agree_iff (g : Guest) (f : HostFunction) (j : Nat)
    (imported : g.image.code[j]? = some (.host f.type f)) (args : List Val) (depth : Nat)
    (w : World) (past : Trace) :
    (∀ (t : Trampoline) (k : Nat) (slot : BitVec 32) (table : Array (Option Nat)),
      f.type = t.targetType → args.map Val.type = t.targetType.params →
      g.image.code[k]? = some (.host t.type (.trampoline t)) →
      g.image.exportsTable = true → g.store.table = some table →
      table[slot.toNat]? = some (some j) → g.store.host.config.indirectCalls = .resolve →
      ((g.callSlot depth k slot args).ending w past =
          (g.callDirect depth j args).ending w past ↔
        ¬ f.Needs args g.store ((g.callDirect depth j args).ending w past))) ∧
    (∀ (name : String) (words : List (BitVec 64)), g.prepare name words = .ok (j, args) →
      ((g.call name words).ending w past =
          ((g.callDirect depth j args).ending w past).map g.told ↔
        ¬ f.Needs args g.store ((g.callDirect depth j args).ending w past))) ∧
    ((∀ t, f ≠ .trampoline t) → g.image.exportsMemory = true → g.store.memory.isSome →
      (f.Needs args g.store ((g.callDirect depth j args).ending w past) ↔
        f.looks g.store args = true)) := by
  have direct : g.callDirect depth j args = (f.run (g.image.context .guest
      (g.image.callee depth .embedder)) args).startAt g.store := by
    rw [Guest.callDirect, Image.callAs_host imported]
  refine ⟨?_, ?_, ?_⟩
  · intro t k slot table type types bound exported held entry resolving
    rw [Guest.ending_callSlot imported bound type types exported held entry resolving, direct]
    exact ending_alone_eq_iff rfl rfl
  · intro name words prepared
    rw [Guest.ending_call imported prepared, direct]
    constructor
    · intro same needs
      have alone : (g.image.context .embedder
        (g.image.callee g.image.maxDepth .embedder)).memoryExported = false := rfl
      rw [(ends_run_of_looks needs.1 alone rfl).ending w past] at same
      exact needs.2 (Guest.eq_of_told same.symm)
    · intro free
      rw [(ending_alone_eq_iff rfl rfl).mpr free]
  · intro plain exported held
    exact needs_iff imported plain exported held depth w past

def copyingGuest : Guest where
  image :=
    { code :=
        [.host (Primitive.type .memcpyBig) (.primitive .memcpyBig),
          .host (Trampoline.type ⟨false, 3⟩) (.trampoline ⟨false, 3⟩)]
      exports :=
        [⟨Image.memoryName, .memory, 0⟩, ⟨Image.tableName, .table, 0⟩, ⟨"copy", .func, 0⟩]
      maxDepth := 10 }
  store :=
    { memory := some (LinearMemory.new 1 none)
      table := some #[some 0]
      host := { config := { indirectCalls := .resolve }, origin := 0 } }

theorem routes_agree_iff_copying :
    (copyingGuest.callSlot 0 1 0 [.i32 0, .i32 0, .i32 0]).ending Surroundings.still.world [] ≠
        (copyingGuest.callDirect 0 0 [.i32 0, .i32 0, .i32 0]).ending Surroundings.still.world [] ∧
      (copyingGuest.call "copy" [0, 0, 0]).ending Surroundings.still.world [] ≠
        ((copyingGuest.callDirect 0 0 [.i32 0, .i32 0, .i32 0]).ending Surroundings.still.world
          []).map copyingGuest.told := by
  obtain ⟨slot, call, needs⟩ := routes_agree_iff copyingGuest (.primitive .memcpyBig) 0 rfl
    [.i32 0, .i32 0, .i32 0] 0 Surroundings.still.world []
  have looking := (needs nofun rfl rfl).mpr rfl
  constructor
  · intro same
    exact (slot ⟨false, 3⟩ 1 0 #[some 0] rfl rfl rfl rfl rfl rfl rfl).mp same looking
  · intro same
    exact (call "copy" [0, 0, 0] rfl).mp same looking

/-- The copy is made when the guest calls it. On the other two ways it fails for want of a memory,
which the guest exports. -/
theorem copy_lacks_memory :
    copyingGuest.memory?.isSome = true ∧
    (∃ s, (copyingGuest.callDirect 0 0 [.i32 0, .i32 0, .i32 0]).ending
      Surroundings.still.world [] = .value (.ok [], s)) ∧
    (copyingGuest.callSlot 0 1 0 [.i32 0, .i32 0, .i32 0]).ending Surroundings.still.world [] =
      .value (.error (.host .noMemory), copyingGuest.store) ∧
    (copyingGuest.call "copy" [0, 0, 0]).ending Surroundings.still.world [] =
      .value (.error ⟨.call, .stopped (.host .noMemory)⟩, copyingGuest) :=
  ⟨rfl, ⟨_, rfl⟩, rfl, rfl⟩

end HostFunction

end GuestHost
