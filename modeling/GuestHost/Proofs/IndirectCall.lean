import GuestHost.Proofs.Depth
import GuestHost.Proofs.Endings

/-!
Calls through the function table. A trampoline that resolves its slot does what a direct call of the
function in the slot does, but for a line in the log.
-/

namespace GuestHost

open Wasm (Val Func FuncType Body)

variable {α : Type}

namespace Trace

def unlogged (t : Trace) : Trace := t.filter (·.record?.isNone)

theorem readings_unlogged (t : Trace) (c : Clock) : t.unlogged.readings c = t.readings c := by
  induction t with
  | nil => rfl
  | cons x t ih =>
    rcases x with ⟨_ | _ | _ | _ | _ | _ | _, _⟩
    all_goals simpa [unlogged, readings, Exchange.record?, List.countP_cons] using ih

theorem drawn_unlogged (t : Trace) : t.unlogged.drawn = t.drawn := by
  induction t with
  | nil => rfl
  | cons x t ih =>
    rcases x with ⟨_ | _ | _ | _ | _ | _ | _, _⟩
    all_goals simpa [unlogged, drawn, Exchange.record?] using ih

theorem offered_unlogged (t : Trace) (stream : OutputStream) :
    t.unlogged.offered stream = t.offered stream := by
  simp only [unlogged, offered, List.filterMap_filter]
  refine congrArg (List.filterMap · t) (funext fun x => ?_)
  rcases x with ⟨_ | _ | _ | _ | _ | _ | _, _⟩ <;> rfl

end Trace

/-- The world that answers as `w` does but does not listen to the log. -/
def World.deaf (w : World) : World := fun t q => w t.unlogged q

theorem World.deaf_log (w : World) (t : Trace) (r : Log.Record) :
    w.deaf.SameAfter (t ++ [⟨.log r, ()⟩]) t := by
  intro u q
  have unlogged : Trace.unlogged (t ++ [⟨.log r, ()⟩] ++ u) = Trace.unlogged (t ++ u) := by
    simp [Trace.unlogged, Exchange.record?]
  exact congrArg (w · q) unlogged

/-- Clocks, random source and streams do not listen to the log. -/
theorem Surroundings.deaf_world (s : Surroundings) : s.world.deaf = s.world := by
  funext t q
  cases q with
  | pid | log | readFile | loadModule => rfl
  | clock c => exact congrArg (s.clock c) (t.readings_unlogged c)
  | random count => simp only [World.deaf, Surroundings.world, Trace.drawn_unlogged]
  | offer stream bytes => simp only [World.deaf, Surroundings.world, Trace.offered_unlogged]

/-- The call fails with an error of the host, and nothing else comes of it. -/
def Run.Refuses (x : Run α) (s : Store) (e : HostError) : Prop :=
  x.startAt s = .done (.error (.host e), s)

def Run.Exhausted (x : Except Stop α × Store) : Prop := x.1 = .error (.fault .stackExhausted)

/-- Run from `s`, the left run exhausts the call stack, or it does what the right one does and ends
as it does. The record comes first on the left, and nothing listens to the log. -/
def Run.SameButFor (r : Log.Record) (s : Store) (x y : Run α) : Prop :=
  ∀ (w : World) (t : Trace),
    (∃ end' u, (x.startAt s).run w.deaf t = (.value end', u) ∧ Run.Exhausted end') ∨
    ∃ ending u, (x.startAt s).run w.deaf t = (ending, t ++ ⟨.log r, ()⟩ :: u) ∧
      (y.startAt s).run w.deaf t = (ending, t ++ u)

theorem Run.Within.sameButFor {x y z : Run α} (h : Run.Within (· = .stackExhausted) α x y)
    {r : Log.Record} {s : Store} (first : z.startAt s = .ask (.log r) fun _ => x.startAt s) : z.SameButFor r s y := by
  intro w t
  rw [first]
  rcases (h s).run (w.deaf_log t r) with ⟨cut, u, left, f, rfl, stopped⟩ | ⟨ending, u, left, right⟩
  · exact .inl ⟨cut, u, left, stopped⟩
  · refine .inr ⟨ending, u, ?_, right⟩
    simpa [Action.run] using left

namespace Wasm

theorem callFrom_of_types {callee : Nat → Option Callee} {func : Nat} {c : Callee}
    (known : callee func = some c) {args : List Val} (types : args.map Val.type = c.type.params) :
    callFrom callee func args = c.call args := by
  simp only [callFrom, known, if_pos types]

end Wasm

namespace Trampoline

theorem dispatch_of_type (t : Trampoline) {c : Callee} (type : c.type = t.targetType)
    {args : List Val} (types : args.map Val.type = t.targetType.params) :
    t.dispatch c args = c.call args := by
  have count : args.length = t.targetType.params.length := by
    rw [← types, List.length_map]
  rw [dispatch_eq]
  simp [type, types, count, Trampoline.type]

/-- A target that takes other arguments, or gives another number of results, is not run. -/
theorem dispatch_of_mismatch (t : Trampoline) {c : Callee} {args : List Val}
    (types : args.map Val.type = t.targetType.params)
    (mismatch : c.type.params ≠ t.targetType.params ∨
      c.type.results.length ≠ t.targetType.results.length) :
    ∃ f ∈ [Wasm.Fault.argumentCount, .resultCount, .argumentType],
      t.dispatch c args = Run.fault f := by
  rw [dispatch_eq]
  by_cases count : c.type.params.length = args.length
  · by_cases results : c.type.results.length = t.type.results.length
    · have params : c.type.params ≠ args.map Val.type := by
        rw [types]
        exact mismatch.resolve_right (not_not_intro results)
      exact ⟨.argumentType, by simp, by simp [count, results, params]⟩
    · exact ⟨.resultCount, by simp, by simp [count, results]⟩
  · exact ⟨.argumentCount, by simp, by simp [count]⟩

def callRecord (t : Trampoline) (slot : BitVec 32) : Log.Record :=
  ⟨.debug, "embridge::trampoline", s!"{t.name}: calling table slot {slot.toNat}"⟩

variable {t : Trampoline} {c : Context} {slot : BitVec 32} {args : List Val} {s : Store}

theorem startAt_run_refused (resolving : s.host.config.indirectCalls = .resolve) {e : HostError}
    (refused : (resolve c slot.toNat).Refuses s e) : (t.run c (.i32 slot :: args)).Refuses s e := by
  unfold Run.Refuses at refused ⊢
  simp only [run_slot, Run.startAt_bind, Run.startAt_host, Action.done_bind, resolving, refused]

theorem startAt_run_found (resolving : s.host.config.indirectCalls = .resolve) {func : Nat}
    (found : (resolve c slot.toNat).startAt s = .done (.ok func, s)) {target : Callee}
    (known : c.callee func = some target) :
    (t.run c (.i32 slot :: args)).startAt s =
      .ask (.log (t.callRecord slot)) fun _ => (t.dispatch target args).startAt s := by
  simp only [run_slot, Run.startAt_bind, Run.startAt_host, Action.done_bind, resolving, found,
    Run.startAt_log, Action.ask_bind, known, callRecord]

theorem resolve_refuses_unexported (slot : Nat)
    (none : c.tableExported = false ∨ s.table = none) :
    (resolve c slot).Refuses s (.badTableEntry slot "guest exports no function table") := by
  unfold Run.Refuses
  rcases none with none | none
  all_goals simp [resolve, Run.startAt_bind, none]

variable {table : Array (Option Nat)}

theorem startAt_resolve (exported : c.tableExported = true) (held : s.table = some table)
    (slot : Nat) : (resolve c slot).startAt s = match table[slot]? with
      | none => .done (.error (.host (.badTableEntry slot "index out of range")), s)
      | some none =>
        .done (.error (.host (.badTableEntry slot "slot is empty or not a function")), s)
      | some (some func) => .done (.ok func, s) := by
  simp only [resolve, Run.startAt_bind, ContextIn.startAt_table?, exported, held, Action.done_bind,
    if_true]
  rcases table[slot]? with _ | _ | func <;> rfl

end Trampoline

namespace Image

variable (i : Image) {func : Nat}

def execCall (depth func : Nat) (args : List Val) (next : List Val → Body α) : Run α :=
  (Body.call func args next).exec (i.callee depth .guest)

/-- Code of the guest calls the trampoline that stands at `j`, with a slot and words for the
target. -/
def execInvoke (depth j : Nat) (slot : BitVec 32) (words : List (BitVec 32))
    (next : List Val → Body α) : Run α :=
  i.execCall (depth + 1) j (.i32 slot :: words.map .i32) next

theorem callee_host {type : FuncType} {f : HostFunction}
    (known : i.code[func]? = some (.host type f)) (depth : Nat) (caller : Caller) :
    i.callee (depth + 1) caller func =
      some ⟨type, f.run (i.context caller (i.callee depth .embedder))⟩ := by
  rw [callee, calleeIn, known]
  rfl

/-- It makes no difference to a function of the guest who calls it. -/
theorem callee_caller {fn : Func} (known : i.code[func]? = some (.guest fn)) (depth : Nat) :
    i.callee depth .embedder func = i.callee depth .guest func := by
  cases depth with
  | zero => rfl
  | succ depth => simp only [callee, calleeIn, known, Option.map_some]

theorem exists_callee {code : Code} (known : i.code[func]? = some code) (depth : Nat)
    (caller : Caller) : ∃ c, i.callee depth caller func = some c ∧ c.type = code.type := by
  cases depth with
  | zero =>
    rw [callee, calleeIn, known]
    exact ⟨_, rfl, rfl⟩
  | succ depth =>
    rw [callee, calleeIn, known]
    exact ⟨_, rfl, rfl⟩

end Image

namespace Trampoline

variable {i : Image} {t : Trampoline} {j : Nat} {slot : BitVec 32} {words : List (BitVec 32)}
  {s : Store}

theorem types_words (arity : words.length = t.arity) :
    (words.map Val.i32).map Val.type = t.targetType.params := by
  simp [targetType, ← arity, Function.comp_def, Val.type, List.map_const']

theorem execInvoke_eq (imported : i.code[j]? = some (.host t.type (.trampoline t)))
    (arity : words.length = t.arity) (depth : Nat) (next : List Val → Body α) :
    i.execInvoke depth j slot words next = (do
      let results ← t.run (i.context .guest (i.callee depth .embedder))
        (.i32 slot :: words.map .i32)
      (next results).exec (i.callee (depth + 1) .guest)) := by
  have typed : (Val.i32 slot :: words.map Val.i32).map Val.type = t.type.params := by
    rw [List.map_cons, types_words arity]
    rfl
  have called := Wasm.callFrom_of_types (i.callee_host imported depth .guest) typed
  rw [Image.execInvoke, Image.execCall, Body.exec, called]
  rfl

theorem execInvoke_refuses (imported : i.code[j]? = some (.host t.type (.trampoline t)))
    (arity : words.length = t.arity) (depth : Nat) (next : List Val → Body α)
    (resolving : s.host.config.indirectCalls = .resolve) {e : HostError}
    (refused : (resolve (i.context .guest (i.callee depth .embedder)) slot.toNat).Refuses s e) :
    (i.execInvoke depth j slot words next).Refuses s e := by
  have stopped : (t.run (i.context .guest (i.callee depth .embedder))
      (.i32 slot :: words.map .i32)).Refuses s e := startAt_run_refused resolving refused
  unfold Run.Refuses at stopped ⊢
  rw [execInvoke_eq imported arity, Run.startAt_bind, stopped]
  rfl

theorem startAt_execInvoke (imported : i.code[j]? = some (.host t.type (.trampoline t)))
    (arity : words.length = t.arity) (depth : Nat) (next : List Val → Body α)
    (resolving : s.host.config.indirectCalls = .resolve) {func : Nat}
    (found : (resolve (i.context .guest (i.callee depth .embedder)) slot.toNat).startAt s =
      .done (.ok func, s))
    {target : Callee} (known : i.callee depth .embedder func = some target) :
    (i.execInvoke depth j slot words next).startAt s =
      .ask (.log (t.callRecord slot)) fun _ => ((do
        let results ← t.dispatch target (words.map .i32)
        (next results).exec (i.callee (depth + 1) .guest)) : Run α).startAt s := by
  rw [execInvoke_eq imported arity, Run.startAt_bind,
    startAt_run_found resolving found known, Action.ask_bind]
  simp only [Run.startAt_bind]

/-- A function of the guest that has the right type is called as from the guest, one level down. -/
theorem startAt_execInvoke_guest (imported : i.code[j]? = some (.host t.type (.trampoline t)))
    (arity : words.length = t.arity) (depth : Nat) (next : List Val → Body α)
    (resolving : s.host.config.indirectCalls = .resolve) {func : Nat} {fn : Func}
    (found : (resolve (i.context .guest (i.callee depth .embedder)) slot.toNat).startAt s =
      .done (.ok func, s))
    (known : i.code[func]? = some (.guest fn)) (type : fn.type = t.targetType) :
    (i.execInvoke depth j slot words next).startAt s =
      .ask (.log (t.callRecord slot)) fun _ => ((do
        let results ← Wasm.callFrom (i.callee depth .guest) func (words.map .i32)
        (next results).exec (i.callee (depth + 1) .guest)) : Run α).startAt s := by
  obtain ⟨target, target_eq, target_type⟩ := i.exists_callee known depth .guest
  have target_type : target.type = t.targetType := target_type.trans type
  have typed : (words.map Val.i32).map Val.type = target.type.params := by
    rw [target_type, types_words arity]
  rw [Wasm.callFrom_of_types target_eq typed]
  rw [← i.callee_caller known] at target_eq
  rw [startAt_execInvoke imported arity depth next resolving found target_eq,
    t.dispatch_of_type target_type (types_words arity)]

/-- A trampoline that resolves its slot calls what the slot of the exported table holds. A function
of the guest that has the trampoline's type does what it does when it is called directly, and the
code behind the call goes on alike. Without a function that may be called nothing is, and the call
fails and changes nothing. -/
theorem resolved_call (i : Image) (t : Trampoline) (j : Nat)
    (imported : i.code[j]? = some (.host t.type (.trampoline t))) (slot : BitVec 32)
    (words : List (BitVec 32)) (arity : words.length = t.arity) (depth : Nat)
    (next : List Val → Body α) (s : Store) (resolving : s.host.config.indirectCalls = .resolve) :
    (i.exportsTable = false ∨ s.table = none →
      (i.execInvoke depth j slot words next).Refuses s
        (.badTableEntry slot.toNat "guest exports no function table")) ∧
    ∀ table, i.exportsTable = true → s.table = some table →
      (table.size ≤ slot.toNat →
        (i.execInvoke depth j slot words next).Refuses s
          (.badTableEntry slot.toNat "index out of range")) ∧
      (table[slot.toNat]? = some none →
        (i.execInvoke depth j slot words next).Refuses s
          (.badTableEntry slot.toNat "slot is empty or not a function")) ∧
      ∀ func code, table[slot.toNat]? = some (some func) → i.code[func]? = some code →
        (code.type.params ≠ t.targetType.params ∨
            code.type.results.length ≠ t.targetType.results.length →
          ∃ f ∈ [Wasm.Fault.argumentCount, .resultCount, .argumentType],
            (i.execInvoke depth j slot words next).startAt s =
              .ask (.log (t.callRecord slot)) fun _ => .done (.error (.fault f), s)) ∧
        ∀ fn, code = .guest fn → fn.type = t.targetType →
          (i.execInvoke depth j slot words .done).startAt s =
            .ask (.log (t.callRecord slot)) (fun _ =>
              (i.execCall depth func (words.map .i32) .done).startAt s) ∧
          (i.execInvoke depth j slot words next).SameButFor (t.callRecord slot) s
            (i.execCall (depth + 1) func (words.map .i32) next) := by
  constructor
  · intro unexported
    refine execInvoke_refuses imported arity depth next resolving ?_
    refine resolve_refuses_unexported _ (unexported.imp (fun none => ?_) id)
    simp [Image.context, none]
  · intro table exported held
    have seen : (i.context .guest (i.callee depth .embedder)).tableExported = true := by
      simp [Image.context, exported]
    have lookup := startAt_resolve seen held slot.toNat
    refine ⟨fun beyond => ?_, fun empty => ?_, fun func code entry known => ⟨?_, ?_⟩⟩
    · rw [Array.getElem?_eq_none beyond] at lookup
      exact execInvoke_refuses imported arity depth next resolving lookup
    · rw [empty] at lookup
      exact execInvoke_refuses imported arity depth next resolving lookup
    · intro mismatch
      rw [entry] at lookup
      obtain ⟨target, target_eq, target_type⟩ := i.exists_callee known depth .embedder
      rw [← target_type] at mismatch
      obtain ⟨f, member, refused⟩ := t.dispatch_of_mismatch (types_words arity) mismatch
      refine ⟨f, member, ?_⟩
      rw [startAt_execInvoke imported arity depth next resolving lookup target_eq, refused]
      rfl
    · intro fn code_eq type
      rw [code_eq] at known
      rw [entry] at lookup
      refine ⟨startAt_execInvoke_guest imported arity depth _ resolving lookup known type, ?_⟩
      have deeper := startAt_execInvoke_guest imported arity depth next resolving lookup known type
      -- The trampoline takes up a call itself, so its target can have one less open below it.
      have called := (Run.within _).simulation.callFrom (i.callee_within depth .guest) func
        (words.map .i32)
      exact (called.bind fun _ => .refl _).sameButFor deeper

def countingImage : Image where
  code :=
    [.host (Trampoline.type ⟨true, 1⟩) (.trampoline ⟨true, 1⟩),
      .guest
        { type := ⟨[.i32], [.i32]⟩
          body := fun args => do
            let space ← Body.space
            match args, space.globals with
            | [.i32 word], [.i32 count] =>
              Body.setSpace { space with globals := [.i32 (count + word)] }
              return [.i32 (count + word)]
            | _, _ => Body.malformed }]
  exports := [⟨Image.tableName, .table, 0⟩]
  maxDepth := 10

def countingStore : Store where
  table := some #[some 1]
  globals := [.i32 20]
  host := { config := { indirectCalls := .resolve }, origin := 0 }

theorem resolved_call_counting :
    (countingImage.execInvoke 1 0 0 [22] .done).startAt countingStore =
      .ask (.log (callRecord ⟨true, 1⟩ 0)) fun _ =>
        .done (.ok [.i32 42], { countingStore with globals := [.i32 42] }) := by
  have resolved := resolved_call countingImage ⟨true, 1⟩ 0 rfl 0 [22] rfl 1 .done countingStore rfl
  have called := ((resolved.2 #[some 1] rfl rfl).2.2 1 _ rfl rfl).2 _ rfl rfl
  have counted : (countingImage.execCall 1 1 [.i32 22] .done).startAt countingStore =
      .done (.ok [.i32 42], { countingStore with globals := [.i32 42] }) := rfl
  rw [called.1, List.map_singleton, counted]

end Trampoline

end GuestHost
