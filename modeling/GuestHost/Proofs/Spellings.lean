import GuestHost.Proofs.Endings
import GuestHost.Proofs.Linked
import GuestHost.Session.Basic

/-!
Spellings of imports. Some host functions have several names, and a module may import them under
any. Main statement: sessions whose modules differ in such spellings alone are the same session,
exchange by exchange and guest by guest.
-/

namespace GuestHost

open Wasm (Module Import FuncType)

/-! Passes over lists that fail alike -/

inductive ExceptRel {ε α β : Type} (Rel : α → β → Prop) : Except ε α → Except ε β → Prop
  | error (e : ε) : ExceptRel Rel (.error e) (.error e)
  | ok {a : α} {b : β} (related : Rel a b) : ExceptRel Rel (.ok a) (.ok b)

namespace ExceptRel

variable {ε α β γ δ : Type} {Rel : α → β → Prop} {Rel' : γ → δ → Prop}

theorem bind {x : Except ε α} {y : Except ε β} {f : α → Except ε γ} {g : β → Except ε δ}
    (h : ExceptRel Rel x y) (next : ∀ a b, Rel a b → ExceptRel Rel' (f a) (g b)) :
    ExceptRel Rel' (x >>= f) (y >>= g) := by
  cases h with
  | error e => exact .error e
  | ok related => exact next _ _ related

theorem eq {x y : Except ε α} (h : ExceptRel (· = ·) x y) : x = y := by
  cases h with
  | error e => rfl
  | ok same => rw [same]

theorem mapM {f : α → Except ε γ} {g : β → Except ε δ} {as : List α} {bs : List β}
    (related : List.Forall₂ Rel as bs) (each : ∀ a b, Rel a b → ExceptRel Rel' (f a) (g b)) :
    ExceptRel (List.Forall₂ Rel') (as.mapM f) (bs.mapM g) := by
  induction related with
  | nil => exact .ok .nil
  | cons first _ ih =>
    rw [List.mapM_cons, List.mapM_cons]
    exact (each _ _ first).bind fun c d here => ih.bind fun cs ds rest => .ok (.cons here rest)

end ExceptRel

/-! Modules -/

namespace Wasm

/-- Two spellings of an import: it is the same, or it has two names of one host function. -/
inductive Import.Respelled : Import → Import → Prop
  | same (i : Import) : Respelled i i
  | renamed (f : HostFunction) {name name' : String} (desc : ImportDesc)
      (offered : f ∈ HostFunction.set false) (named : name ∈ f.names) (renamed : name' ∈ f.names) :
      Respelled ⟨f.ns, name, desc⟩ ⟨f.ns, name', desc⟩

structure Module.Respelled (m m' : Module) : Prop where
  imports : List.Forall₂ Import.Respelled m.imports m'.imports
  rest : m' = { m with imports := m'.imports }

theorem Import.Respelled.desc_eq {i i' : Import} (respelled : i.Respelled i') :
    i'.desc = i.desc := by
  cases respelled <;> rfl

namespace Module.Respelled

variable {m m' : Module}

theorem funcTypes_eq (respelled : m.Respelled m') : m'.funcTypes = m.funcTypes := by
  have imported : m'.importedFuncs = m.importedFuncs := by
    have each := respelled.imports
    rw [importedFuncs, importedFuncs]
    generalize m.imports = is, m'.imports = is' at each ⊢
    induction each with
    | nil => rfl
    | cons first _ ih => simp only [List.filterMap_cons, first.desc_eq, ih]
  rw [funcTypes, funcTypes, imported, respelled.rest]

theorem countImports_eq (respelled : m.Respelled m') (kind : ExternKind) :
    m'.countImports kind = m.countImports kind := by
  have each := respelled.imports
  rw [countImports, countImports]
  generalize m.imports = is, m'.imports = is' at each ⊢
  induction each with
  | nil => rfl
  | cons first _ ih => simp only [List.countP_cons, first.desc_eq, ih]

theorem isValid_eq (respelled : m.Respelled m') : m'.isValid = m.isValid := by
  have types := respelled.funcTypes_eq
  have counts := respelled.countImports_eq
  obtain ⟨_, rest⟩ := respelled
  have memory : m'.memoryCount = m.memoryCount := by
    rw [memoryCount, memoryCount, counts, rest]
  have table : m'.tableCount = m.tableCount := by
    rw [tableCount, tableCount, counts, rest]
  have global : m'.globalCount = m.globalCount := by
    rw [globalCount, globalCount, counts, rest]
  have count (kind : ExternKind) : m'.count kind = m.count kind := by
    cases kind with
    | func => exact congrArg List.length types
    | memory => exact memory
    | table => exact table
    | global => exact global
  simp only [isValid, elemsAreValid, startIsValid, count, types, memory, table]
  rw [rest]

end Module.Respelled

end Wasm

/-! Linking -/

open Wasm.Import (Respelled)

theorem HostFunction.mem_set_of_false {f : HostFunction} (offered : f ∈ set false) (wasi : Bool) :
    f ∈ set wasi := by
  cases wasi with
  | false => exact offered
  | true =>
    have split : set true = set false ++ WasiCall.all.map .wasi := by simp [set]
    rw [split]
    exact List.mem_append_left _ offered

namespace Guest

variable (c : Config)

/-- What the linker of a guest has under two spellings differs in the key alone. -/
theorem lookup_respelled {i i' : Import} (respelled : Respelled i i') :
    ExceptRel (fun x x' => x'.1.desc = x.1.desc ∧ x'.2.type = x.2.type ∧ x'.2.func = x.2.func)
      (Image.lookup (registrar c).1.linker i) (Image.lookup (registrar c).1.linker i') := by
  cases respelled with
  | same i =>
    cases Image.lookup (registrar c).1.linker i with
    | error f => exact .error f
    | ok x => exact .ok ⟨rfl, rfl, rfl⟩
  | renamed f desc offered named renamed =>
    have served := HostFunction.mem_set_of_false offered c.wasi
    have looked {name : String} (named : name ∈ f.names) :
        Image.lookup (registrar c).1.linker ⟨f.ns, name, desc⟩ =
          .ok (⟨f.ns, name, desc⟩, ⟨⟨f.ns, name⟩, f.type, f⟩) :=
      Image.lookup_eq_ok_iff.mpr ⟨rfl, find?_of_served served named⟩
    rw [looked named, looked renamed]
    exact .ok ⟨rfl, rfl, rfl⟩

theorem typed_respelled {x x' : Import × Definition HostFunction}
    (same : x'.1.desc = x.1.desc ∧ x'.2.type = x.2.type ∧ x'.2.func = x.2.func) :
    ExceptRel (· = ·) (Image.typed x) (Image.typed x') := by
  obtain ⟨desc, type, func⟩ := same
  rw [Image.typed, Image.typed, desc, type, func]
  split
  · exact .ok rfl
  · exact .error _

theorem link_respelled {m m' : Module} (respelled : m.Respelled m') :
    Image.link m' (registrar c).1.linker = Image.link m (registrar c).1.linker := by
  obtain ⟨imports, rest⟩ := respelled
  have found := ExceptRel.mapM imports fun _ _ => lookup_respelled c
  have alike : ExceptRel (· = ·) (Image.link m (registrar c).1.linker)
      (Image.link m' (registrar c).1.linker) := by
    rw [Image.link_eq_bind, Image.link_eq_bind]
    apply found.bind
    intro found found' looked
    apply (ExceptRel.mapM looked fun _ _ => typed_respelled).bind
    intro code code' agreed
    have same : code = code' := List.forall₂_eq_eq_eq ▸ agreed
    rw [same, rest]
    exact .ok rfl
  exact alike.eq.symm

/-- An import that is missing has no other spelling, so the first that is missing is the same. -/
theorem checkImports_respelled {is is' : List Import} (respelled : List.Forall₂ Respelled is is') :
    (registrar c).1.checkImports is' = (registrar c).1.checkImports is := by
  let missing (i : Import) : Bool :=
    (registrar c).1.serves i.ns && ((registrar c).1.shimFor? ⟨i.ns, i.name⟩).isNone
  suffices first : is'.find? missing = is.find? missing by
    rw [Registrar.checkImports, Registrar.checkImports, first]
  induction respelled with
  | nil => rfl
  | cons first _ ih =>
    cases first with
    | same i => rw [List.find?_cons, List.find?_cons, ih]
    | renamed f desc offered named renamed =>
      have there {name : String} (named : name ∈ f.names) : missing ⟨f.ns, name, desc⟩ = false := by
        have claimed := (registrar_claims c ⟨f.ns, name⟩).mpr
          ⟨f, HostFunction.mem_set_of_false offered c.wasi, rfl, named⟩
        rw [← Registrar.shimFor?_isSome] at claimed
        simp [missing, Option.isNone_eq_false_iff.mpr claimed]
      rw [List.find?_cons, List.find?_cons, there named, there renamed, ih]

theorem instantiate_respelled {m m' : Module} (respelled : m.Respelled m') :
    instantiate m' c = instantiate m c := by
  have brought (image : Image) : bringUp m' image c = bringUp m image c := by
    have count : m'.imports.length = m.imports.length := respelled.imports.length_eq.symm
    rw [bringUp_eq, bringUp_eq, count, respelled.rest]
    rfl
  rw [instantiate_eq, instantiate_eq, respelled.isValid_eq, registrar_ok]
  simp only [checkImports_respelled c respelled.imports, link_respelled c respelled, brought]

end Guest

/-! Sessions -/

/-- The steps are the same, but for the spelling of imports in a module that a guest is made of. -/
inductive Step.Respelled : Step → Step → Prop
  | create {m m' : Module} (config : String) (respelled : m.Respelled m') :
    Respelled (.create (some m) config) (.create (some m') config)
  | same (q : Step) : Respelled q q

namespace Session

theorem step_respelled (s : Session) {q q' : Step} (respelled : q.Respelled q') :
    s.step q' = s.step q := by
  cases respelled with
  | same q => rfl
  | create config respelled =>
    rw [step, step, create, create]
    simp only [Guest.load_some, Guest.instantiate_respelled _ respelled]

/-- Two sessions take the same steps in one world, but some imports of the modules that guests are
made of have another name of the same host function. Then they are the same session: every step has
the same reply after the same exchanges, records of the log among them, the process ends alike or
the guests are the same in the end, and so it is after each step, since the steps are any. -/
theorem play_respelled (w : World) (s : Session) (t : Trace) {qs qs' : List Step}
    (respelled : List.Forall₂ Step.Respelled qs qs') : play w s t qs' = play w s t qs := by
  induction respelled generalizing s t with
  | nil => rfl
  | cons first _ ih =>
    rw [play, play, s.step_respelled first]
    split
    · rfl
    · rw [ih]

def spelledModule (set get call : String) : Module where
  imports := [⟨"env", set, .func ⟨[.i32], []⟩⟩, ⟨"env", get, .func ⟨[], [.i32]⟩⟩,
    ⟨"env", call, .func ⟨[.i32, .i32, .i32], [.i32]⟩⟩]
  funcs := [{
    type := ⟨[.i32], [.i32]⟩
    body := fun args => do
      let _ ← Wasm.Body.callFunc 0 args
      let words ← Wasm.Body.callFunc 1 []
      Wasm.Body.callFunc 2 (words ++ [.i32 4096, .i32 4]) }]
  exports := [⟨"run", .func, 3⟩]
  maxDepth := 10

def spelledSteps (set get call : String) : List Step :=
  [.create (some (spelledModule set get call)) "\x7b\"fatal\":\"trap\"\x7d", .call 0 "run" [7],
    .host 0 (.staging .get)]

theorem play_respelled_legacy :
    let qs := spelledSteps "setTempRet0" "getTempRet0" "__syscall_madvise"
    let qs' := spelledSteps "_emscripten_tempret_set" "getTempRet0" "__sys_madvise1"
    List.Forall₂ Step.Respelled qs qs' ∧
      play Surroundings.still.world [] [] qs' = play Surroundings.still.world [] [] qs := by
  intro qs qs'
  have set : Respelled ⟨"env", "setTempRet0", .func ⟨[.i32], []⟩⟩
      ⟨"env", "_emscripten_tempret_set", .func ⟨[.i32], []⟩⟩ :=
    .renamed (.primitive .setTempRet0) _ (by decide) (by decide) (by decide)
  have call : Respelled ⟨"env", "__syscall_madvise", .func ⟨[.i32, .i32, .i32], [.i32]⟩⟩
      ⟨"env", "__sys_madvise1", .func ⟨[.i32, .i32, .i32], [.i32]⟩⟩ :=
    .renamed (.syscall .madvise) _ (by decide) (by decide) (by decide)
  have respelled : List.Forall₂ Step.Respelled qs qs' :=
    .cons (.create _ ⟨.cons set (.cons (.same _) (.cons call .nil)), rfl⟩)
      (.cons (.same _) (.cons (.same _) .nil))
  exact ⟨respelled, play_respelled Surroundings.still.world [] [] respelled⟩

end Session

end GuestHost
