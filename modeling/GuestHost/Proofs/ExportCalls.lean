import GuestHost.Proofs.ExitStatus
import GuestHost.Proofs.HistoryInvariant
import GuestHost.Proofs.RaisedErrors
import GuestHost.Proofs.ReachableGuests

/-!
Calls of exports. Main statement: a call that is rejected runs nothing and changes nothing; any other
runs the function of the export once, from the words read as its parameters, and tells of the end of
that run: the error of the host that stopped it, another failure, or its results if they have words.
-/

namespace GuestHost

open Wasm (Val ValType FuncType Module)

def Wasm.ValType.worded : List ValType := [.i32, .i64, .f32, .f64]

theorem Wasm.Val.ofWord?_of_mem {t : ValType} (worded : t ∈ ValType.worded) (w : BitVec 64) :
    ∃ v, ofWord? w t = some v := by
  cases t with
  | i32 | i64 | f32 | f64 => exact ⟨_, rfl⟩
  | v128 | funcref => simp [ValType.worded] at worded

theorem Wasm.Val.ofWord?_of_not_mem {t : ValType} (other : t ∉ ValType.worded) (w : BitVec 64) :
    ofWord? w t = none := by
  cases t with
  | i32 | i64 | f32 | f64 => simp [ValType.worded] at other
  | v128 | funcref => rfl

section

variable {α β : Type} {f : α → Option β} {as : List α}

theorem mapM_eq_some {bs : List β} (all : as.mapM f = some bs) : as.map f = bs.map some := by
  induction as generalizing bs with
  | nil =>
    cases all
    rfl
  | cons a as ih =>
    rw [List.mapM_cons] at all
    obtain ⟨b, first, rest⟩ := Option.bind_eq_some_iff.mp all
    obtain ⟨bs', later, same⟩ := Option.bind_eq_some_iff.mp rest
    cases same
    rw [List.map_cons, List.map_cons, first, ih later]

theorem exists_of_mapM_none (none : as.mapM f = none) : ∃ a ∈ as, f a = .none := by
  induction as with
  | nil => cases none
  | cons a as ih =>
    rw [List.mapM_cons] at none
    cases first : f a with
    | none => exact ⟨a, List.mem_cons_self, first⟩
    | some b =>
      cases rest : as.mapM f with
      | none =>
        obtain ⟨x, member, fails⟩ := ih rest
        exact ⟨x, List.mem_cons_of_mem a member, fails⟩
      | some bs => simp [first, rest] at none

end

namespace Guest

/-- What words come to as values of given types: the values, or the first type that has no words. -/
inductive Reads (ts : List ValType) (ws : List (BitVec 64)) : Except ValType (List Val) → Prop
  | all {vals : List Val} (worded : ∀ t ∈ ts, t ∈ ValType.worded)
      (read : vals.map some = List.zipWith Val.ofWord? ws ts) : Reads ts ws (.ok vals)
  | first {before after : List ValType} {t : ValType} (split : ts = before ++ t :: after)
      (worded : ∀ u ∈ before, u ∈ ValType.worded) (other : t ∉ ValType.worded) :
      Reads ts ws (.error t)

theorem reads_toVals {ts : List ValType} {ws : List (BitVec 64)} (count : ts.length = ws.length) :
    Reads ts ws (toVals ts ws) := by
  induction ts generalizing ws with
  | nil =>
    obtain rfl := List.length_eq_zero_iff.mp count.symm
    exact .all (by simp) rfl
  | cons t ts ih =>
    obtain ⟨w, ws, rfl⟩ := List.exists_cons_of_length_eq_add_one count.symm
    by_cases worded : t ∈ ValType.worded
    · obtain ⟨v, read⟩ := Val.ofWord?_of_mem worded w
      have rest := ih (Nat.succ.inj count)
      rw [toVals, read]
      generalize toVals ts ws = r at rest ⊢
      cases rest with
      | all all same =>
        refine .all (List.forall_mem_cons.mpr ⟨worded, all⟩) ?_
        rw [List.zipWith_cons_cons, read, ← same]
        rfl
      | first split before other =>
        exact .first (congrArg (t :: ·) split) (List.forall_mem_cons.mpr ⟨worded, before⟩) other
    · rw [toVals, Val.ofWord?_of_not_mem worded]
      exact .first (List.nil_append _).symm (by simp) worded

theorem export?_of_hasExport {g : Guest} (well : g.image.WellFormed) {name : String}
    (exported : g.hasExport name = true) :
    ∃ func code, g.export? name = some (func, code.type) ∧ g.image.code[func]? = some code := by
  obtain ⟨func, found⟩ := Option.isSome_iff_exists.mp exported
  obtain ⟨e, first, rfl⟩ := Option.map_eq_some_iff.mp found
  have func : e.kind = .func := by
    have kind := List.find?_some first
    simp only [decide_eq_true_eq] at kind
    exact kind.2
  have below := well.exported e (List.mem_of_find?_eq_some first) func
  have known := List.getElem?_eq_getElem below
  refine ⟨e.index, _, ?_, known⟩
  simp [export?, found, known]

theorem export?_of_not_hasExport {g : Guest} {name : String} (missing : g.hasExport name = false) :
    g.export? name = none := by
  have none : g.image.exports? name .func = none := by
    simpa [hasExport] using missing
  simp [export?, none]

inductive Tells (later : History) :
    Except Stop (List Val) → Except GuestError (List (BitVec 64)) → Prop
  | host {before : History} {last : Event} {e : HostError} {err : GuestError}
      (split : later = before ++ [last]) (quiet : ∀ x ∈ before, x.Quiet) (raises : last.Raises e)
      (context : err.stage.name = "call::call") (error : err.hostError? = some e)
      (message : err.failure.message = e.message) : Tells later (.error (.host e)) (.error err)
  | fault {f : Wasm.Fault} {err : GuestError} (quiet : ∀ x ∈ later, x.Quiet)
      (context : err.stage.name = "call::call") (own : err.hostError? = none) :
      Tells later (.error (.fault f)) (.error err)
  | words {vals : List Val} {words : List (BitVec 64)} (quiet : ∀ x ∈ later, x.Quiet)
      (told : vals.map Val.toWord? = words.map some) : Tells later (.ok vals) (.ok words)
  | wordless {vals : List Val} {v : Val} {err : GuestError} (quiet : ∀ x ∈ later, x.Quiet)
      (result : v ∈ vals) (other : v.toWord? = none) (context : err.stage.name = "call::results")
      (own : err.hostError? = none) : Tells later (.ok vals) (.error err)

theorem tells_outcome {later : History} {r : Except Stop (List Val)} (blames : Blames later r) :
    Tells later r (outcome r) := by
  cases blames with
  | raised quiet raises => exact .host rfl quiet raises rfl rfl rfl
  | calm own quiet =>
    rcases r with (e | f) | vals
    · exact absurd rfl (own e)
    · exact .fault quiet rfl rfl
    · unfold outcome
      dsimp only
      split
      · rename_i words told
        exact .words quiet (mapM_eq_some told)
      · rename_i none
        obtain ⟨v, result, other⟩ := exists_of_mapM_none none
        exact .wordless quiet result other rfl rfl

/-- How a call goes, after what is in the record. -/
inductive CallGoes (g : Guest) (h : History) (name : String) (args : List (BitVec 64)) : Prop
  | notFound {err : GuestError} (missing : g.hasExport name = false)
      (rejected : g.recordedCall h name args = .done ((.error err, g), h))
      (context : err.stage.name = "call::get_func") (own : err.hostError? = none)
  | wrongCount {func : Nat} {type : FuncType} {err : GuestError}
      (exported : g.export? name = some (func, type)) (count : type.params.length ≠ args.length)
      (rejected : g.recordedCall h name args = .done ((.error err, g), h))
      (context : err.stage.name = "call::args") (own : err.hostError? = none)
  | wrongType {func : Nat} {type : FuncType} {before after : List ValType} {t : ValType}
      {err : GuestError} (exported : g.export? name = some (func, type))
      (count : type.params.length = args.length) (split : type.params = before ++ t :: after)
      (worded : ∀ u ∈ before, u ∈ ValType.worded) (other : t ∉ ValType.worded)
      (rejected : g.recordedCall h name args = .done ((.error err, g), h))
      (failure : err.failure = .unsupportedParameter t)
      (context : err.stage.name = "call::args") (own : err.hostError? = none)
  | runs {func : Nat} {code : Code} {vals : List Val}
      (exported : g.export? name = some (func, code.type))
      (known : g.image.code[func]? = some code) (count : code.type.params.length = args.length)
      (worded : ∀ t ∈ code.type.params, t ∈ ValType.worded)
      (read : vals.map some = List.zipWith Val.ofWord? args code.type.params)
      (once : g.recordedCall h name args =
        (Recorded.startAt (g.image.callIn .embedder (g.image.maxDepth + 1) func vals) g.store h).bind
          fun ((r, s), h') => .done ((outcome r, { g with store := s }), h'))
      (ends : (Recorded.startAt (g.image.callIn .embedder (g.image.maxDepth + 1) func vals)
          g.store h).Always fun p =>
        ∃ first rest, p.2 = h ++ first :: rest ∧ code.Opens vals first ∧
          Tells (first :: rest) p.1.1 (outcome p.1.1))

variable {g : Guest} {h : History} {name : String} {args : List (BitVec 64)}

theorem recordedCall_of_rejected {err : GuestError} (rejected : g.prepare name args = .error err)
    (h : History) : g.recordedCall h name args = .done ((.error err, g), h) := by
  rw [recordedCall_eq, rejected]
  rfl

theorem recordedCall_erased (honest : g.image.Honest) (h : History) (name : String)
    (args : List (BitVec 64)) :
    (g.recordedCall h name args).bind (fun x => .done x.1) = g.call name args := by
  rw [recordedCall_eq, call_eq]
  cases prepared : g.prepare name args with
  | error e => rfl
  | ok run =>
    have ran := Recorded.explains.simulation.call (Recorded.explains.hostRel honest) .embedder
      (g.image.maxDepth + 1) run.1 run.2 (types_of_prepare prepared)
    refine Action.Along.erase (P := fun a b => a.1 = b) ?_ _ fun _ _ same => same
    apply (ran g.store h).bind
    rintro ⟨⟨r, s⟩, h'⟩ _ ⟨rfl, -⟩
    exact .done rfl

/-- Where the export is found, the number of the words and then the types decide. -/
theorem callGoes_of_export {func : Nat} {code : Code} (honest : g.image.Honest)
    (exported : g.export? name = some (func, code.type)) (known : g.image.code[func]? = some code)
    (h : History) : g.CallGoes h name args := by
  by_cases count : code.type.params.length = args.length
  · have reads := reads_toVals count
    have prepared : g.prepare name args = ((toVals code.type.params args).mapError fun t =>
        ⟨.args, .unsupportedParameter t⟩).map (func, ·) := by
      rw [prepare, exported]
      simp only [count, ne_eq, not_true_eq_false, if_false]
      cases toVals code.type.params args <;> rfl
    generalize toVals code.type.params args = r at reads prepared
    cases reads with
    | first split before other =>
      exact .wrongType exported count split before other (recordedCall_of_rejected prepared h)
        rfl rfl rfl
    | all worded read =>
      have explained := Recorded.call_explained honest .embedder known
        (types_of_prepare prepared code known) g.image.maxDepth g.store h
      refine .runs exported known count worded read ?_ (explained.mono ?_)
      · rw [recordedCall_eq, prepared]
        rfl
      · rintro p ⟨first, rest, record, opens, blames⟩
        exact ⟨first, rest, record, opens, tells_outcome blames⟩
  · have prepared : g.prepare name args =
        .error ⟨.args, .argumentCount name code.type.params.length args.length⟩ := by
      rw [prepare, exported]
      simp only [ne_eq, count, not_false_eq_true, if_true]
    exact .wrongCount exported count (recordedCall_of_rejected prepared h) rfl rfl

/-- Any call on a guest that an embedder can come to hold. The recorder changes nothing, a name has a
function exactly if the guest says that it exports one, and the cases are decided in their order. -/
theorem call_goes (g : Guest) (reachable : g.Reachable) (h : History) (name : String)
    (args : List (BitVec 64)) :
    (g.recordedCall h name args).bind (fun x => .done x.1) = g.call name args ∧
      ((g.export? name).isSome ↔ g.hasExport name = true) ∧ g.CallGoes h name args := by
  have well := reachable.wellFormed
  refine ⟨recordedCall_erased well.honest h name args, ?_⟩
  cases exported : g.hasExport name with
  | false =>
    have none := export?_of_not_hasExport exported
    have prepared : g.prepare name args = .error ⟨.getFunc, .exportNotFound name⟩ := by
      rw [prepare, none]
    exact ⟨by simp [none], .notFound exported (recordedCall_of_rejected prepared h) rfl rfl⟩
  | true =>
    obtain ⟨func, code, found, known⟩ := export?_of_hasExport well exported
    exact ⟨by simp [found], callGoes_of_export well.honest found known h⟩

def waitingModule : Module := { CommandLine.exitingModule with start := none }

def waitingGuest : Guest := ⟨CommandLine.exitingImage, freshStore waitingModule .default 0⟩

theorem waitingGuest_reachable : waitingGuest.Reachable := by
  have linked : Image.link waitingModule (registrar .default).1.linker =
      .ok CommandLine.exitingImage := CommandLine.exitingModule_linked.linked
  exact reachable_of_link (by decide) linked (by decide) (by decide)

theorem call_goes_waiting : waitingGuest.Reachable ∧
    (waitingGuest.recordedCall [] "run" []).bind (fun x => .done x.1) =
      waitingGuest.call "run" [] ∧
    ((waitingGuest.export? "run").isSome ↔ waitingGuest.hasExport "run" = true) ∧
    waitingGuest.CallGoes [] "run" [] :=
  ⟨waitingGuest_reachable, call_goes waitingGuest waitingGuest_reachable [] "run" []⟩

example : waitingGuest.call "run" [] =
    .done (.error ⟨.call, .stopped (.host (.guestExit 7))⟩, waitingGuest) := rfl

end Guest

end GuestHost
