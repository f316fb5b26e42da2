import GuestHost.Proofs.Depth
import GuestHost.Proofs.Linked
import GuestHost.Wasm.Compile

/-!
How far the machine lets a guest go shows in one way only. Let it have fewer calls open and go round
loops less often: a module then does what it does where it may go farther, or it is stopped for having
gone too far.
-/

namespace GuestHost

def Wasm.Fault.isLimit : Wasm.Fault → Bool
  | stackExhausted | roundsExhausted => true
  | _ => false

/-- The left run does what the right one does, or it is stopped for having gone too far. -/
abbrev Run.Nearer : (α : Type) → Run α → Run α → Prop := Run.Within (·.isLimit = true)

theorem Run.nearer : Congruence (fun e => e.isFatal = true) Nearer := within _

namespace Wasm

namespace Body

variable {α β : Type}

/-- The left code is the right one, but it may have been cut where a limit was reached. -/
inductive Within : {α : Type} → Body α → Body α → Prop
  | done {α : Type} (a : α) : Within (done a) (done a)
  | fault {α : Type} (f : Fault) (running : f.isLinking = false) :
    Within (fault f running : Body α) (fault f running)
  | cut {α : Type} (f : Fault) (running : f.isLinking = false) (isLimit : f.isLimit = true)
    (y : Body α) : Within (fault f running) y
  | look {α : Type} {k l : Space → Body α} (next : ∀ space, Within (k space) (l space)) :
    Within (look k) (look l)
  | put {α : Type} (space : Space) {x y : Body α} (next : Within x y) :
    Within (put space x) (put space y)
  | call {α : Type} (func : Nat) (args : List Val) {k l : List Val → Body α}
    (next : ∀ results, Within (k results) (l results)) :
    Within (call func args k) (call func args l)

theorem Within.refl (x : Body α) : Within x x := by
  induction x with
  | done a => exact .done a
  | fault f running => exact .fault f running
  | look k ih => exact .look ih
  | put space x ih => exact .put space ih
  | call func args k ih => exact .call func args ih

theorem Within.bind {x y : Body α} {f g : α → Body β} (h : Within x y)
    (next : ∀ a, Within (f a) (g a)) : Within (x >>= f) (y >>= g) := by
  induction h with
  | done a => exact next a
  | fault e running => exact .fault e running
  | cut e running isLimit y => exact .cut e running isLimit _
  | look _ ih => exact .look ih
  | put space _ ih => exact .put space ih
  | call func args _ ih => exact .call func args ih

/-- Callees may have been cut as well. -/
theorem Within.exec {callee callee' : Nat → Option Callee}
    (related : ∀ func, Option.Rel (CalleeRel Run.Nearer) (callee func) (callee' func))
    {x y : Body α} (h : Within x y) :
    Run.Nearer α (x.exec callee) (y.exec callee') := by
  have code := Run.nearer.simulation
  induction h with
  | done a => exact code.pure a
  | fault f running => exact code.fault f running
  | cut f running isLimit y => exact fun s => .out _ _ ⟨f, isLimit, rfl⟩
  | look _ ih => exact code.bind code.space ih
  | put space _ ih => exact code.bind (code.setSpace space) fun _ => ih
  | call func args _ ih => exact code.bind (code.callFrom related func args) ih

end Body

theorem Func.exec_within {callee callee' : Nat → Option Callee}
    (related : ∀ func, Option.Rel (CalleeRel Run.Nearer) (callee func) (callee' func))
    {fn fn' : Func} (type : fn.type = fn'.type)
    (body : ∀ args, (fn.body args).Within (fn'.body args)) (args : List Val) :
    Run.Nearer _ (fn.exec callee args) (fn'.exec callee' args) := by
  refine Run.Within.bind (.refl _) fun _ => ((body args).exec related).bind fun results => ?_
  rw [Func.checked, Func.checked, type]
  exact .refl _

/-! Code where a loop may be gone round more often -/

structure Engine.Farther (e e' : Engine) : Prop where
  depth : e.maxDepth ≤ e'.maxDepth
  rounds : e.maxRounds ≤ e'.maxRounds

theorem repeatBody_within (arity : Nat) {code code' : Frame → Body Flow}
    (within : ∀ f, (code f).Within (code' f)) {rounds rounds' : Nat} (farther : rounds ≤ rounds')
    (f : Frame) : (repeatBody arity code rounds f).Within (repeatBody arity code' rounds' f) := by
  induction rounds generalizing rounds' f with
  | zero =>
    -- The rounds are used up, whatever comes on the right.
    exact .cut .roundsExhausted rfl rfl _
  | succ rounds ih =>
    obtain ⟨rounds', rfl⟩ := Nat.exists_eq_add_of_lt farther
    refine (within f).bind fun flow => ?_
    rcases flow with f | ⟨_ | label, f⟩ | f
    · exact .refl _
    · exact ih (by omega) _
    · exact .refl _
    · exact .refl _

theorem Op.run_engine (e : Env) (engine : Engine) (op : Op) (f : Frame) :
    op.run { e with engine := engine } f = op.run e f := by
  cases op <;> rfl

mutual

theorem Instr.run_within (e : Env) {engine : Engine} (farther : e.engine.Farther engine) :
    (i : Instr) → (f : Frame) → (i.run e f).Within (i.run { e with engine := engine } f)
  | .op op, f => by
    rw [Instr.run, Instr.run, op.run_engine]
    exact .refl _
  | .block type body, f => by
    rw [Instr.run, Instr.run]
    exact (Body.Within.refl _).bind fun _ =>
      (runAll_within e farther body _).bind fun _ => .refl _
  | .loop type body, f => by
    rw [Instr.run, Instr.run]
    refine (Body.Within.refl _).bind fun _ => Body.Within.bind ?_ fun _ => .refl _
    exact repeatBody_within _ (runAll_within e farther body) farther.rounds _
  | .cond type thn els, f => by
    rw [Instr.run, Instr.run]
    refine (Body.Within.refl _).bind fun _ => (Body.Within.refl _).bind fun _ => ?_
    dsimp only
    split
    · exact (runAll_within e farther els _).bind fun _ => .refl _
    · exact (runAll_within e farther thn _).bind fun _ => .refl _
  | .br label, f => .refl _
  | .brIf label, f => .refl _
  | .brTable labels otherwise, f => .refl _
  | .ret, f => .refl _
  | .call func, f => .refl _
  | .callIndirect type, f => .refl _

theorem runAll_within (e : Env) {engine : Engine} (farther : e.engine.Farther engine) :
    (is : List Instr) → (f : Frame) →
      (runAll e is f).Within (runAll { e with engine := engine } is f)
  | [], f => .refl _
  | i :: is, f => by
    rw [runAll, runAll]
    refine (Instr.run_within e farther i f).bind fun flow => ?_
    cases flow with
    | next f => exact runAll_within e farther is f
    | br label f => exact .refl _
    | ret f => exact .refl _

end

theorem SourceFunc.compile_within (e : Env) {engine : Engine} (farther : e.engine.Farther engine)
    (fn : SourceFunc) (args : List Val) :
    ((fn.compile e).body args).Within ((fn.compile { e with engine := engine }).body args) :=
  (runAll_within e farther fn.body _).bind fun _ => .refl _

end Wasm

open Wasm (Val Func FuncType Module Source Engine)

/-! Guests that may go farther -/

inductive Code.Within : Code → Code → Prop
  | host (type : FuncType) (f : HostFunction) : Within (host type f) (host type f)
  | guest {fn fn' : Func} (type : fn.type = fn'.type)
    (body : ∀ args, (fn.body args).Within (fn'.body args)) : Within (guest fn) (guest fn')

theorem Code.Within.refl (code : Code) : Within code code := by
  cases code with
  | host type f => exact .host type f
  | guest fn => exact .guest rfl fun _ => .refl _

theorem Code.Within.type {code code' : Code} (h : Within code code') : code.type = code'.type := by
  cases h with
  | host => rfl
  | guest type => exact type

namespace Image

structure Within (i i' : Image) : Prop where
  code (func : Nat) : Option.Rel Code.Within i.code[func]? i'.code[func]?
  exports : i.exports = i'.exports
  maxDepth : i.maxDepth ≤ i'.maxDepth

variable {i i' : Image}

theorem Within.context (h : i.Within i') (caller : Caller) {callee callee' : Nat → Option Callee}
    (related : ∀ func, Option.Rel (CalleeRel Run.Nearer) (callee func) (callee' func)) :
    ContextRel Run.Nearer (i.context caller callee)
      (i'.context caller callee') where
  memory := by simp only [Image.context, exportsMemory, exports?, h.exports]
  table := by simp only [Image.context, exportsTable, exports?, h.exports]
  callee := related

theorem Within.callee (h : i.Within i') {depth depth' : Nat} (farther : depth ≤ depth')
    (caller : Caller) (func : Nat) :
    Option.Rel (CalleeRel Run.Nearer) (i.callee depth caller func)
      (i'.callee depth' caller func) := by
  unfold Image.callee
  have same := h.code func
  induction depth generalizing depth' caller func with
  | zero =>
    cases depth' with
    | zero | succ =>
      rw [calleeIn, calleeIn]
      generalize i.code[func]? = code, i'.code[func]? = code' at same ⊢
      cases same with
      | none => exact .none
      | some same => exact .some ⟨same.type, fun _ _ s => .out _ _ ⟨_, rfl, rfl⟩⟩
  | succ depth ih =>
    obtain ⟨more, rfl⟩ := Nat.exists_eq_add_of_lt farther
    have below (caller : Caller) (func : Nat) :=
      ih (Nat.le_add_right depth more) caller func (h.code func)
    rw [calleeIn, calleeIn]
    cases found : i.code[func]? with
    | none =>
      rw [found] at same
      generalize i'.code[func]? = code' at same ⊢
      cases same
      exact .none
    | some code =>
      rw [found] at same
      generalize i'.code[func]? = code' at same ⊢
      cases same with
      | some same =>
        refine .some ⟨same.type, fun args typed => ?_⟩
        cases same with
        | host type f =>
          exact Run.nearer.hostRel i.raises_fatal type f (List.mem_of_getElem? found) _ _
            (h.context caller (below .embedder)) args typed
        | guest type body => exact Wasm.Func.exec_within (below .guest) type body args

theorem Within.call (h : i.Within i') (caller : Caller) (func : Nat) (args : List Val)
    (typed : ∀ code, i'.code[func]? = some code → args.map Val.type = code.type.params) :
    Run.Nearer _ (i.call caller func args) (i'.call caller func args) :=
  Run.nearer.simulation.callIn (h.callee (Nat.succ_le_succ h.maxDepth) caller func) typed

theorem Within.startUp (h : i.Within i') {m m' : Module} (opening : m.opening = m'.opening) :
    Run.Nearer _ (Guest.startUp m i) (Guest.startUp m' i') := by
  unfold Guest.startUp Guest.startUpIn
  rw [opening]
  exact (Wasm.Body.Within.refl _).exec (h.callee (Nat.succ_le_succ h.maxDepth) .guest)

end Image

namespace Wasm.Source

variable {s : Source} {e e' : Engine} {m : Module}

theorem code_within (s : Source) (farther : e.Farther e') (ds : List Code) (func : Nat) :
    Option.Rel Code.Within
      (ds ++ (s.funcs.map (·.compile (s.env e))).map Code.guest)[func]?
      (ds ++ (s.funcs.map (·.compile (s.env e'))).map Code.guest)[func]? := by
  rw [List.getElem?_append, List.getElem?_append]
  split
  · rename_i imported
    rw [List.getElem?_eq_getElem imported]
    exact .some (.refl _)
  · simp only [List.getElem?_map]
    cases s.funcs[func - ds.length]? with
    | none => exact .none
    | some fn => exact .some (.guest rfl (fn.compile_within (s.env e) farther))

/-- A machine that lets guests go farther loads the same modules and links them alike, and what they
do here they do there, unless they are stopped here for having gone too far. -/
theorem runs_farther (farther : e.Farther e') (compiled : s.compile? e = some m) :
    ∃ m', s.compile? e' = some m' ∧ ∀ (l : Linker HostFunction) (i : Image),
      Image.link m l = .ok i → ∃ i', Image.link m' l = .ok i' ∧
        Run.Nearer _ (Guest.startUp m i) (Guest.startUp m' i') ∧
        ∀ (caller : Caller) (func : Nat) (args : List Val),
          (∀ code, i'.code[func]? = some code → args.map Val.type = code.type.params) →
            Run.Nearer _ (i.call caller func args) (i'.call caller func args) := by
  unfold compile? at compiled ⊢
  split at compiled
  · cases compiled
  · rename_i valid
    cases compiled
    rw [if_neg valid]
    refine ⟨_, rfl, fun l i linked => ?_⟩
    obtain ⟨ds, found, rfl⟩ := Image.link_eq_ok_iff.mp linked
    refine ⟨_, Image.link_eq_ok_iff.mpr ⟨ds, found, rfl⟩, ?_⟩
    have within : Image.Within ⟨_, s.exports, e.maxDepth⟩ ⟨_, s.exports, e'.maxDepth⟩ :=
      ⟨s.code_within farther (ds.map Image.Code.ofDefinition), rfl, farther.depth⟩
    exact ⟨within.startUp rfl, within.call⟩

end Wasm.Source

end GuestHost
