import GuestHost.Guest.Error
import GuestHost.Guest.Image
import GuestHost.Guest.Word
import GuestHost.Import.Registrar
import GuestHost.Wasm.Validation

/-!
Guests: making one from a module, and calling its exports.
-/

namespace GuestHost

open Wasm (Val Module)

structure Guest where
  image : Image
  store : Store

namespace Guest

/-- Words for the parameters, or the first parameter whose type has no words. -/
def toVals : List Wasm.ValType → List (BitVec 64) → Except Wasm.ValType (List Val)
  | t :: ts, w :: ws => do
    match Val.ofWord? w t with
    | some v => return v :: (← toVals ts ws)
    | none => throw t
  | _, _ => return []

def hasExport (g : Guest) (name : String) : Bool := (g.image.exports? name .func).isSome

def export? (g : Guest) (name : String) : Option (Nat × Wasm.FuncType) := do
  let func ← g.image.exports? name .func
  let code ← g.image.code[func]?
  return (func, code.type)

/-- Everything that is checked before a call: the function to run and its arguments. -/
def prepare (g : Guest) (name : String) (args : List (BitVec 64)) :
    Except GuestError (Nat × List Val) :=
  match g.export? name with
  | none => .error ⟨.getFunc, .exportNotFound name⟩
  | some (func, type) =>
    if type.params.length ≠ args.length then
      .error ⟨.args, .argumentCount name type.params.length args.length⟩
    else match toVals type.params args with
      | .error t => .error ⟨.args, .unsupportedParameter t⟩
      | .ok vals => .ok (func, vals)

theorem types_of_toVals {ts : List Wasm.ValType} {ws : List (BitVec 64)} {vals : List Val}
    (count : ts.length = ws.length) (converted : toVals ts ws = .ok vals) :
    vals.map Val.type = ts := by
  induction ts generalizing ws vals with
  | nil =>
    cases converted
    rfl
  | cons t ts ih =>
    obtain ⟨w, ws, rfl⟩ := List.exists_cons_of_length_eq_add_one count.symm
    unfold toVals at converted
    split at converted
    · rename_i v read
      cases rest : toVals ts ws with
      | error e => simp [rest, bind, Except.bind] at converted
      | ok more =>
        simp only [rest, bind, Except.bind, pure, Except.pure, Except.ok.injEq] at converted
        rw [← converted, List.map_cons, Val.type_of_ofWord? read, ih (Nat.succ.inj count) rest]
    · cases converted

/-- What is called is the exported function, with one word read for each parameter. -/
theorem exists_code_of_prepare {g : Guest} {name : String} {args : List (BitVec 64)} {func : Nat}
    {vals : List Val} (prepared : g.prepare name args = .ok (func, vals)) :
    ∃ code, g.image.code[func]? = some code ∧ g.export? name = some (func, code.type) ∧
      code.type.params.length = args.length ∧ toVals code.type.params args = .ok vals := by
  unfold prepare at prepared
  split at prepared
  · cases prepared
  · rename_i func' type exported
    split at prepared
    · cases prepared
    · rename_i count
      split at prepared
      · cases prepared
      · rename_i converted
        cases prepared
        have looked := exported
        simp only [export?, bind, Option.bind_eq_some_iff] at looked
        obtain ⟨func, _, code, known, same⟩ := looked
        cases same
        exact ⟨code, known, exported, Decidable.not_not.mp count, converted⟩

theorem types_of_prepare {g : Guest} {name : String} {args : List (BitVec 64)} {func : Nat}
    {vals : List Val} (prepared : g.prepare name args = .ok (func, vals)) (code : Code)
    (known : g.image.code[func]? = some code) : vals.map Val.type = code.type.params := by
  obtain ⟨code', known', -, count, converted⟩ := exists_code_of_prepare prepared
  cases known.symm.trans known'
  exact types_of_toVals count converted

def outcome : Except Stop (List Val) → Except GuestError (List (BitVec 64))
  | .error stop => .error ⟨.call, .stopped stop⟩
  | .ok vals =>
    match vals.mapM Val.toWord? with
    | some words => .ok words
    | none => .error ⟨.results, .unsupportedResult⟩

def memory? (g : Guest) : Option LinearMemory :=
  if g.image.exportsMemory then g.store.memory else none

def setMemory (g : Guest) (m : LinearMemory) : Guest :=
  { g with store := { g.store with memory := some m } }

def freshStore (m : Module) (config : Config) (origin : Nat) : Store where
  memory := m.memory.map fun l => LinearMemory.new l.min l.max
  table := m.table.map fun l => Array.replicate l.min none
  globals := m.globals
  host := { config := config, origin := origin }

def registrar (config : Config) : Registrar HostFunction × Except HostError Unit :=
  Registrar.install { wasi := config.wasi, linker := {} } id

/-- The export that runs once, right after the rest is done. -/
def setupExport : String := "_initialize"

def target : String := "embridge::guest"

section

variable {A : Type → Type} [Monad A] [Watch A]

/-- Call an export with words. What the call changed stays changed when it fails. -/
def callIn (g : Guest) (name : String) (args : List (BitVec 64)) :
    A (Except GuestError (List (BitVec 64)) × Guest) :=
  match g.prepare name args with
  | .error e => return (.error e, g)
  | .ok (func, vals) => do
    let (result, store) ←
      (g.image.callIn .embedder (g.image.maxDepth + 1) func vals).startAt g.store
    return (outcome result, { g with store := store })

def startUpIn (m : Module) (image : Image) : RunIn A Unit :=
  m.opening.exec (image.calleeIn (image.maxDepth + 1) .guest)

def runSetupIn (g : Guest) : A (Except GuestError Guest) :=
  if g.hasExport setupExport then do
    Watch.lift (Action.log .debug target s!"Running {setupExport}")
    let (result, g) ← g.callIn setupExport []
    match result with
    | .ok _ => return .ok g
    | .error e => return .error { e with stage := .setup }
  else return .ok g

def bringUpIn (m : Module) (image : Image) (config : Config) : A (Except GuestError Guest) := do
  let origin ← Watch.lift (Action.request (.clock .monotonic))
  let (result, store) ← (startUpIn m image).startAt (freshStore m config origin)
  match result with
  | .error stop => return .error ⟨.instantiate, .stopped stop⟩
  | .ok () =>
    Watch.lift (Action.log .info target
      s!"Instantiated guest ({m.imports.length} imports, memory: {image.exportsMemory})")
    runSetupIn ⟨image, store⟩

/-- Make a guest of a module. Its imports are checked and linked before any of its code runs. -/
def instantiateIn (m : Module) (config : Config) : A (Except GuestError Guest) :=
  if !m.isValid then return .error ⟨.load, .stopped (.fault .malformed)⟩
  else match registrar config with
    | (_, .error e) => return .error ⟨.link, .stopped (.host e)⟩
    | (r, .ok ()) => do
      Watch.lift
        (Action.log .info "embridge::registrar" s!"Registered {r.bindings.length} host imports")
      match r.checkImports m.imports with
      | .error e => return .error ⟨.imports, .stopped (.host e)⟩
      | .ok () =>
        match Image.link m r.linker with
        | .error f => return .error ⟨.instantiate, .stopped (.fault f)⟩
        | .ok image => bringUpIn m image config

def loadIn (m : Option Module) (config : Config) : A (Except GuestError Guest) :=
  match m with
  | none => return .error ⟨.load, .stopped (.fault .malformed)⟩
  | some m => instantiateIn m config

end

/-! The running programs -/

def call (g : Guest) (name : String) (args : List (BitVec 64)) :
    Action (Except GuestError (List (BitVec 64)) × Guest) := g.callIn name args

def startUp (m : Module) (image : Image) : Run Unit := startUpIn m image

def runSetup (g : Guest) : Action (Except GuestError Guest) := g.runSetupIn

def bringUp (m : Module) (image : Image) (config : Config) : Action (Except GuestError Guest) :=
  bringUpIn m image config

def instantiate (m : Module) (config : Config) : Action (Except GuestError Guest) :=
  instantiateIn m config

def load (m : Option Module) (config : Config) : Action (Except GuestError Guest) :=
  loadIn m config

theorem load_some (m : Module) (config : Config) : load (some m) config = instantiate m config := rfl

theorem call_eq (g : Guest) (name : String) (args : List (BitVec 64)) :
    g.call name args = (match g.prepare name args with
      | .error e => return (.error e, g)
      | .ok (func, vals) => do
        let (result, store) ← (g.image.call .embedder func vals).startAt g.store
        return (outcome result, { g with store := store })) := rfl

theorem runSetup_eq (g : Guest) :
    g.runSetup = (if g.hasExport setupExport then do
        Action.log .debug target s!"Running {setupExport}"
        let (result, g) ← g.call setupExport []
        match result with
        | .ok _ => return .ok g
        | .error e => return .error { e with stage := .setup }
      else return .ok g) := rfl

theorem bringUp_eq (m : Module) (image : Image) (config : Config) :
    bringUp m image config = (do
      let origin ← Action.request (.clock .monotonic)
      let (result, store) ← (startUp m image).startAt (freshStore m config origin)
      match result with
      | .error stop => return .error ⟨.instantiate, .stopped stop⟩
      | .ok () =>
        Action.log .info target
          s!"Instantiated guest ({m.imports.length} imports, memory: {image.exportsMemory})"
        runSetup ⟨image, store⟩) := rfl

theorem instantiate_eq (m : Module) (config : Config) :
    instantiate m config =
      (if !m.isValid then return .error ⟨.load, .stopped (.fault .malformed)⟩
      else match registrar config with
        | (_, .error e) => return .error ⟨.link, .stopped (.host e)⟩
        | (r, .ok ()) => do
          Action.log .info "embridge::registrar" s!"Registered {r.bindings.length} host imports"
          match r.checkImports m.imports with
          | .error e => return .error ⟨.imports, .stopped (.host e)⟩
          | .ok () =>
            match Image.link m r.linker with
            | .error f => return .error ⟨.instantiate, .stopped (.fault f)⟩
            | .ok image => bringUp m image config) := by
  unfold instantiate instantiateIn
  generalize registrar config = made
  obtain ⟨r, _ | _⟩ := made
  · rfl
  · rfl

end Guest

end GuestHost
