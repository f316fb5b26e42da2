import GuestHost.Proofs.ExportCalls
import GuestHost.Proofs.ResultTypes
import GuestHost.Proofs.Verdict
import Mathlib.Algebra.Ring.Int.Defs
import Mathlib.Algebra.Ring.Nat

/-!
Words as the declared types read them. Main statement: of an argument only the bits count that a
value of the parameter's type has, for a call as for the command line program, and a result has no
others.
-/

namespace GuestHost

open Wasm (Val ValType FuncType Module)

namespace Wasm

/-- The low bits of a word that a value of the type has. -/
def ValType.wordBits : ValType → Nat
  | i32 | f32 => 32
  | _ => 64

namespace Val

theorem setWidth_low (w : BitVec 64) :
    (w.setWidth 32).setWidth 64 = BitVec.ofNat 64 (w.toNat % 2 ^ 32) := by
  apply BitVec.eq_of_toNat_eq
  simp only [BitVec.toNat_setWidth, BitVec.toNat_ofNat]

/-- A word that is read as a value and told again has lost what the type does not read. -/
theorem toWord?_of_ofWord? {w : BitVec 64} {t : ValType} {v : Val} (read : ofWord? w t = some v) :
    v.toWord? = some (BitVec.ofNat 64 (w.toNat % 2 ^ t.wordBits)) := by
  have whole : BitVec.ofNat 64 (w.toNat % 2 ^ 64) = w := by
    rw [Nat.mod_eq_of_lt w.isLt, BitVec.ofNat_toNat, BitVec.setWidth_eq]
  cases t with
  | i32 | f32 =>
    cases read
    exact congrArg some (setWidth_low w)
  | i64 | f64 =>
    cases read
    exact congrArg some whole.symm
  | v128 | funcref => cases read

theorem exists_toWord? {v : Val} (worded : v.type ∈ ValType.worded) :
    ∃ w, v.toWord? = some w ∧ ofWord? w v.type = some v := by
  have back (w : BitVec 32) : (w.setWidth 64).setWidth 32 = w := by simp
  cases v with
  | i32 w => exact ⟨_, rfl, congrArg (some ∘ i32) (back w)⟩
  | f32 w => exact ⟨_, rfl, congrArg (some ∘ f32) (back w)⟩
  | i64 w | f64 w => exact ⟨w, rfl, rfl⟩
  | v128 | funcref => simp [type, ValType.worded] at worded

theorem toNat_lt_of_toWord? {v : Val} {w : BitVec 64} (told : v.toWord? = some w) :
    w.toNat < 2 ^ v.type.wordBits := by
  cases v with
  | i32 u | f32 u =>
    cases told
    rw [BitVec.toNat_setWidth]
    exact Nat.lt_of_le_of_lt (Nat.mod_le _ _) u.isLt
  | i64 | f64 =>
    cases told
    exact w.isLt
  | v128 | funcref => cases told

theorem ofWord?_congr {w w' : BitVec 64} {t : ValType}
    (same : w.toNat % 2 ^ t.wordBits = w'.toNat % 2 ^ t.wordBits) : ofWord? w t = ofWord? w' t := by
  have low (same : w.toNat % 2 ^ 32 = w'.toNat % 2 ^ 32) : w.setWidth 32 = w'.setWidth 32 := by
    apply BitVec.eq_of_toNat_eq
    rwa [BitVec.toNat_setWidth, BitVec.toNat_setWidth]
  have whole (same : w.toNat % 2 ^ 64 = w'.toNat % 2 ^ 64) : w = w' := by
    apply BitVec.eq_of_toNat_eq
    rwa [Nat.mod_eq_of_lt w.isLt, Nat.mod_eq_of_lt w'.isLt] at same
  cases t with
  | i32 => exact congrArg (some ∘ i32) (low same)
  | f32 => exact congrArg (some ∘ f32) (low same)
  | i64 => exact congrArg (some ∘ i64) (whole same)
  | f64 => exact congrArg (some ∘ f64) (whole same)
  | v128 | funcref => rfl

end Val

end Wasm

/-- Arguments for the same parameters, one each, and related at each. -/
inductive AtEach {α : Type} (Rel : ValType → α → α → Prop) : List ValType → List α → List α → Prop
  | nil : AtEach Rel [] [] []
  | cons {t : ValType} {ts : List ValType} {x y : α} {xs ys : List α} (first : Rel t x y)
      (rest : AtEach Rel ts xs ys) : AtEach Rel (t :: ts) (x :: xs) (y :: ys)

namespace AtEach

variable {α β : Type} {Rel : ValType → α → α → Prop} {Rel' : ValType → β → β → Prop}
  {ts : List ValType} {xs ys : List α}

theorem length_eq (alike : AtEach Rel ts xs ys) :
    xs.length = ts.length ∧ ys.length = ts.length := by
  induction alike with
  | nil => exact ⟨rfl, rfl⟩
  | cons _ _ ih => exact ⟨congrArg Nat.succ ih.1, congrArg Nat.succ ih.2⟩

theorem map (alike : AtEach Rel ts xs ys) (f : α → β)
    (each : ∀ t x y, Rel t x y → Rel' t (f x) (f y)) : AtEach Rel' ts (xs.map f) (ys.map f) := by
  induction alike with
  | nil => exact .nil
  | cons first _ ih => exact .cons (each _ _ _ first) ih

end AtEach

/-- Words with the same low bits, as many as the type reads. -/
def SameLow (t : ValType) (w w' : BitVec 64) : Prop :=
  w.toNat % 2 ^ t.wordBits = w'.toNat % 2 ^ t.wordBits

namespace Guest

variable {ts : List ValType} {g : Guest} {name : String}

theorem toVals_congr {ws ws' : List (BitVec 64)} (alike : AtEach SameLow ts ws ws') :
    toVals ts ws = toVals ts ws' := by
  induction alike with
  | nil => rfl
  | cons first _ ih => rw [toVals, toVals, Val.ofWord?_congr first, ih]

theorem call_congr {func : Nat} {type : FuncType} (exported : g.export? name = some (func, type))
    {args args' : List (BitVec 64)} (alike : AtEach SameLow type.params args args') :
    g.call name args = g.call name args' := by
  have prepared : g.prepare name args = g.prepare name args' := by
    obtain ⟨count, count'⟩ := alike.length_eq
    rw [prepare, prepare, exported]
    simp only [count, count', toVals_congr alike]
  rw [call_eq, call_eq, prepared]

theorem words_lt {vals : List Val} {words : List (BitVec 64)} (told : vals.map Val.toWord? =
    words.map some) (types : vals.map Val.type = ts) :
    List.Forall₂ (fun t w => w.toNat < 2 ^ t.wordBits) ts words := by
  induction vals generalizing ts words with
  | nil =>
    obtain rfl := List.map_eq_nil_iff.mp told.symm
    subst types
    exact .nil
  | cons v vals ih =>
    subst types
    cases words with
    | nil => cases told
    | cons w words =>
      obtain ⟨first, rest⟩ := List.cons.inj told
      exact .cons (Val.toNat_lt_of_toWord? first) (ih rest rfl)

theorem exists_of_outcome {r : Except Stop (List Val)} {words : List (BitVec 64)}
    (told : outcome r = .ok words) :
    ∃ vals, r = .ok vals ∧ vals.map Val.toWord? = words.map some := by
  unfold outcome at told
  split at told
  · cases told
  · rename_i vals
    split at told
    · rename_i mapped
      cases told
      exact ⟨vals, rfl, mapM_eq_some mapped⟩
    · cases told

theorem always_call_lt (honest : g.image.Honest) {func : Nat} {type : FuncType}
    (exported : g.export? name = some (func, type)) (args : List (BitVec 64)) :
    (g.call name args).Always fun x => ∀ words, x.1 = .ok words →
      List.Forall₂ (fun t w => w.toNat < 2 ^ t.wordBits) type.results words := by
  rw [call_eq]
  cases prepared : g.prepare name args with
  | error e => exact fun _ => nofun
  | ok run =>
    obtain ⟨func', vals⟩ := run
    obtain ⟨code, known, exported', -⟩ := exists_code_of_prepare prepared
    cases exported.symm.trans exported'
    refine (Action.always_bind _ _ _).mpr ?_
    apply (honest.call_yields .embedder known vals g.store).mono
    rintro ⟨r, s⟩ yielded words told
    obtain ⟨results, ended, told⟩ := exists_of_outcome told
    exact words_lt told (yielded results ended)

end Guest

def Wasm.Module.exportType? (m : Module) (name : String) : Option FuncType := do
  let e ← m.exports.find? fun e => e.name = name ∧ e.kind = .func
  m.funcTypes[e.index]?

theorem Image.LinkedFrom.exportType? {m : Module} {c : Config} {g : Guest}
    (made : g.image.LinkedFrom m c) (name : String) :
    (g.export? name).map (·.2) = m.exportType? name := by
  have exports : g.image.exports = m.exports := by
    obtain ⟨ds, -, same⟩ := link_eq_ok_iff.mp made.linked
    rw [same]
  rw [Module.exportType?, ← types_of_link made.linked, ← exports]
  simp only [Guest.export?, Image.exports?, bind]
  cases g.image.exports.find? fun e => e.name = name ∧ e.kind = .func with
  | none => rfl
  | some e =>
    simp only [Option.map_some, Option.bind_some, List.getElem?_map]
    cases g.image.code[e.index]? <;> rfl

namespace CommandLine

/-- Whole numbers with the same low bits, as many as the type reads. -/
def SameLow (t : ValType) (n n' : Int) : Prop := n % 2 ^ t.wordBits = n' % 2 ^ t.wordBits

theorem sameLow_ofInt {t : ValType} {n n' : Int} (same : SameLow t n n') :
    GuestHost.SameLow t (BitVec.ofInt 64 n) (BitVec.ofInt 64 n') := by
  unfold SameLow at same
  unfold GuestHost.SameLow
  rw [BitVec.toNat_ofInt, BitVec.toNat_ofInt]
  cases t <;> simp only [ValType.wordBits] at same ⊢ <;> omega

variable {w : World} {t : Trace} {argv argv' : List String} {a : Arguments} {args' : List Int}

theorem callExport_congr {g : Guest} (count : a.args.length = args'.length)
    (alike : ∀ type, (g.export? a.exportName).map (·.2) = some type →
      AtEach SameLow type.params a.args args') :
    callExport g a = callExport g { a with args := args' } := by
  have called : g.call a.exportName (a.args.map (BitVec.ofInt 64)) =
      g.call a.exportName (args'.map (BitVec.ofInt 64)) := by
    cases exported : g.export? a.exportName with
    | none => simp only [Guest.call_eq, Guest.prepare, exported]
    | some e =>
      have agree := alike e.2 (by rw [exported]; rfl)
      exact Guest.call_congr exported (agree.map (BitVec.ofInt 64) fun _ _ _ => sameLow_ofInt)
  rw [callExport, callExport, called, count]

theorem run_congr (accepted : Arguments.parse argv = .ok a)
    (accepted' : Arguments.parse argv' = .ok { a with args := args' })
    (count : a.args.length = args'.length)
    (alike : ∀ config t' m type, (readConfig a).run w t = (.value (.ok config), t') →
      w t' (.loadModule a.wasm) = .ok (some m) → m.exportType? a.exportName = some type →
        AtEach SameLow type.params a.args args') :
    (run argv).run w t = (run argv').run w t := by
  have config : readConfig { a with args := args' } = readConfig a := rfl
  rw [run, run, accepted, accepted']
  dsimp only
  rw [runWith, runWith, config, Action.bind_eq_bind, Action.bind_eq_bind, Action.run_bind,
    Action.run_bind]
  rcases read : (readConfig a).run w t with ⟨ending, t'⟩
  cases ending with
  | exited status => rfl
  | value r =>
    cases r with
    | error e => rfl
    | ok config =>
      dsimp only [Action.request, Action.bind_eq_bind, Action.ask_bind, Action.done_bind,
        Action.run]
      cases loaded : w t' (.loadModule a.wasm) with
      | error e => rfl
      | ok contents =>
        dsimp only
        have made := Guest.always_load_madeFrom contents config
        rw [made.bind_congr]
        rintro (e | g) from_module
        · rfl
        · obtain ⟨m, rfl, image⟩ := from_module g rfl
          exact callExport_congr count fun type exported =>
            alike config t' m type read loaded (image.exportType? a.exportName ▸ exported)

end CommandLine

/-- The declared types say what words mean. Take any export of a guest that an embedder can come to
hold. Lists of words that agree for each parameter in the low 32 bits, or for parameters of 64 bits
in all, make one call: the same answer and the same guest after it, with the same exchanges on the
way. A word that is answered has no bits beyond those of its result. A word that is read as a value
and told again is reduced to the bits of the type; a value that is told as a word is read back. So
the command line program does the same in all respects with two lists of arguments that agree in
this way. -/
theorem words_by_type :
    (∀ g : Guest, g.Reachable → ∀ name func type, g.export? name = some (func, type) →
      (∀ args args', AtEach SameLow type.params args args' → g.call name args = g.call name args') ∧
      ∀ args, (g.call name args).Always fun x => ∀ words, x.1 = .ok words →
        List.Forall₂ (fun t w => w.toNat < 2 ^ t.wordBits) type.results words) ∧
    (∀ t ∈ ValType.worded, ∀ w, ∃ v, Val.ofWord? w t = some v ∧ v.type = t ∧
      v.toWord? = some (BitVec.ofNat 64 (w.toNat % 2 ^ t.wordBits))) ∧
    (∀ v : Val, v.type ∈ ValType.worded →
      ∃ w, v.toWord? = some w ∧ Val.ofWord? w v.type = some v) ∧
    ∀ (w : World) (t : Trace) (argv argv' : List String) (a : CommandLine.Arguments)
      (args' : List Int), CommandLine.Arguments.parse argv = .ok a →
      CommandLine.Arguments.parse argv' = .ok { a with args := args' } →
      a.args.length = args'.length →
      (∀ config t' m type, (CommandLine.readConfig a).run w t = (.value (.ok config), t') →
        w t' (.loadModule a.wasm) = .ok (some m) → m.exportType? a.exportName = some type →
          AtEach CommandLine.SameLow type.params a.args args') →
      (CommandLine.run argv).run w t = (CommandLine.run argv').run w t := by
  refine ⟨fun g reachable name func type exported => ⟨fun args args' alike => ?_, fun args => ?_⟩,
    fun t worded w => ?_, fun v worded => Val.exists_toWord? worded,
    fun w t argv argv' a args' accepted accepted' count alike =>
      CommandLine.run_congr accepted accepted' count alike⟩
  · exact Guest.call_congr exported alike
  · obtain ⟨m, c, image⟩ := reachable.linkedFrom
    exact Guest.always_call_lt image.wellFormed.honest exported args
  · obtain ⟨v, read⟩ := Val.ofWord?_of_mem worded w
    exact ⟨v, read, Val.type_of_ofWord? read, Val.toWord?_of_ofWord? read⟩

def addingModule : Module where
  funcs := [{
    type := ⟨[.i32, .i64], [.i32]⟩
    body := fun
      | [.i32 a, .i64 b] => return [.i32 (a + b.setWidth 32)]
      | _ => Wasm.Body.malformed }]
  exports := [⟨"add", .func, 0⟩]
  maxDepth := 10

def addingGuest : Guest where
  image :=
    { code := addingModule.funcs.map .guest
      exports := addingModule.exports
      maxDepth := addingModule.maxDepth }
  store := Guest.freshStore addingModule .default 0

theorem addingGuest_reachable : addingGuest.Reachable := by
  have linked : Image.link addingModule (Guest.registrar .default).1.linker =
      .ok addingGuest.image := Image.link_eq_ok_iff.mpr ⟨[], .nil, rfl⟩
  exact Guest.reachable_of_link (by decide) linked (by decide) (by decide)

def addingWorld : World :=
  { Surroundings.still with moduleFile := fun _ => .ok (some addingModule) }.world

def addingArguments : CommandLine.Arguments where
  wasm := "adding.wasm"
  exportName := "add"
  args := [-1, -1]

theorem words_by_type_adding :
    addingGuest.Reachable ∧
    addingGuest.call "add" [0xffffffff00000005, 7] = addingGuest.call "add" [5, 7] ∧
    ((addingGuest.call "add" [5, 7]).Always fun x => ∀ words, x.1 = .ok words →
      List.Forall₂ (fun t w => w.toNat < 2 ^ t.wordBits) [ValType.i32] words) ∧
    (∃ v, Val.ofWord? 0xffffffff7fc00001 .f32 = some v ∧ v.type = .f32 ∧
      v.toWord? = some 0x7fc00001) ∧
    (∃ w, (Val.i32 0xffffffff).toWord? = some w ∧ Val.ofWord? w .i32 = some (.i32 0xffffffff)) ∧
    (CommandLine.run ["adding.wasm", "add", "-1", "-1"]).run addingWorld [] =
      (CommandLine.run ["adding.wasm", "add", "4294967295", "-1"]).run addingWorld [] := by
  obtain ⟨calls, reduced, kept, programs⟩ := words_by_type
  obtain ⟨congr, small⟩ := calls addingGuest addingGuest_reachable "add" 0 _ rfl
  have alike : AtEach CommandLine.SameLow [.i32, .i64] [-1, -1] [4294967295, -1] :=
    .cons rfl (.cons rfl .nil)
  refine ⟨addingGuest_reachable, congr _ _ (.cons rfl (.cons rfl .nil)), small _,
    reduced .f32 (by decide) _, kept (.i32 0xffffffff) (by decide),
    programs addingWorld [] _ _ addingArguments [4294967295, -1] (by rfl) (by rfl) rfl ?_⟩
  intro config t' m type _ loaded exported
  obtain rfl : addingModule = m := Option.some.inj (Except.ok.inj loaded)
  obtain rfl : (⟨[.i32, .i64], [.i32]⟩ : FuncType) = type := Option.some.inj exported
  exact alike

end GuestHost
