import GuestHost.Proofs.HostHistory

/-!
What is wrong with the imports of a module. Main statement: it is told before any function of guest or
host is called, and it is all that errors of configuration are about.
-/

namespace GuestHost

open Wasm (Module Import)

variable {α β : Type}

/-- Reasons that concern the imports of a module and not a running guest. -/
def Stop.isLinking : Stop → Bool
  | host e => e.isConfiguration
  | fault f => f.isLinking

namespace Run

def Proper (x : Run α) : Prop :=
  ∀ s, (x.startAt s).Always fun p => ∀ stop, p.1 = .error stop → stop.isLinking = false

theorem Proper.bind {x : Run α} {f : α → Run β} (hx : Proper x) (hf : ∀ a, Proper (f a)) :
    Proper (x >>= f) := by
  intro s
  apply always_startAt_bind
  apply (hx s).mono
  rintro ⟨stop | a, s'⟩ proper
  · intro stop' same
    cases same
    exact proper stop rfl
  · exact hf a s'

theorem proper_pure (a : α) : Proper (Pure.pure a) := fun _ => nofun

theorem proper_ask (q : Request) : Proper (Run.ask q) := by
  intro s
  rw [startAt_ask]
  exact fun _ => nofun

theorem proper_stop (stop : Stop) (other : stop.isLinking = false) : Proper (throw stop : Run α) := by
  intro s stop' same
  cases same
  exact other

theorem proper_fatal (e : HostError) (isFatal : e.isFatal = true) :
    Proper (Run.fatal e : Run α) := by
  intro s
  rw [startAt_fatal]
  intro _
  cases s.host.config.fatal with
  | exit =>
    intro _
    trivial
  | trap =>
    apply proper_stop (.host e)
    cases e with
    | unsupported | aborted => rfl
    | _ => cases isFatal

theorem codeProper : CodeCongruence fun _ x _ => Proper x where
  pure := proper_pure
  bind hx hf := hx.bind hf
  fault f other := proper_stop (.fault f) other
  store same s := same s s (.refl s) s
  modify _ _ _ := nofun

theorem proper_deliver (stream : OutputStream) (chunks : List (List UInt8)) :
    Proper (WasiCall.deliver stream chunks) := by
  intro s
  rw [WasiCall.startAt_deliver]
  split
  · exact nofun
  · exact codeProper.sendAll stream (fun bytes => proper_ask (.offer stream bytes)) chunks s

theorem proper_needing (f : Feature) (call : String) {x : Run α} (h : Proper x) :
    Proper (Run.needing f call x) := by
  intro s
  rw [startAt_needing]
  split
  · exact h s
  · exact proper_fatal (.unsupported call) rfl s

theorem proper : Congruence (fun e => e.isFatal = true) fun _ x _ => Proper x where
  toCodeCongruence := codeProper
  fail e plain := proper_stop (.host e) (Bool.or_eq_false_iff.mp plain).1
  fatal := proper_fatal
  ask q _ _ := proper_ask q
  deliver := proper_deliver
  needing f call _ _ _ h := proper_needing f call h
  stage _ _ := nofun
  record _ _ := nofun

end Run

def Config.Serves (c : Config) (ns : String) : Prop :=
  ns = HostFunction.env ∨ c.wasi = true ∧ ns = HostFunction.wasiNs

/-- The import is from a namespace that is served, and nothing is installed under its name. -/
def Wasm.Import.Missing (c : Config) (i : Import) : Prop :=
  c.Serves i.ns ∧ ¬ HostFunction.Offered c.wasi ⟨i.ns, i.name⟩

namespace GuestError

def isConfiguration (err : GuestError) : Bool := err.hostError?.any (·.isConfiguration)

def IsProper (err : GuestError) : Prop :=
  ∀ stop, err.failure = .stopped stop → stop.isLinking = false

theorem isProper_stopped {stop : Stop} (other : stop.isLinking = false) (stage : Stage) :
    IsProper ⟨stage, .stopped stop⟩ := by
  intro stop' same
  cases same
  exact other

theorem IsProper.isConfiguration {err : GuestError} (proper : err.IsProper) :
    err.isConfiguration = false := by
  obtain ⟨stage, failure⟩ := err
  cases failure with
  | stopped stop =>
    have other := proper stop rfl
    cases stop with
    | host e => exact other
    | fault f => rfl
  | _ => rfl

theorem IsProper.ne_unknownImport {err : GuestError} (proper : err.IsProper) :
    err.failure ≠ .stopped (.fault .unknownImport) := by
  intro unknown
  cases proper _ unknown

end GuestError

def ProperResult (x : Except GuestError α) : Prop := ∀ err, x = .error err → err.IsProper

theorem properResult_ok (a : α) : ProperResult (.ok a) := nofun

theorem properResult_error {err : GuestError} (proper : err.IsProper) :
    ProperResult (.error err : Except GuestError α) := by
  intro err' same
  cases same
  exact proper

namespace Guest

theorem registrar_serves (c : Config) (ns : String) :
    (registrar c).1.serves ns = true ↔ c.Serves ns := by
  rw [registrar_eq]
  simp [Registrar.serves, Registrar.withAll, Config.Serves]

theorem checkImports_of_missing {c : Config} {before after : List Import} {i : Import}
    (missing : i.Missing c) (first : ∀ j ∈ before, ¬ j.Missing c) :
    (registrar c).1.checkImports (before ++ i :: after) =
      .error (.missingImport i.ns i.name) := by
  have missing_iff (j : Import) : ((registrar c).1.serves j.ns &&
      ((registrar c).1.shimFor? ⟨j.ns, j.name⟩).isNone) = true ↔ j.Missing c := by
    rw [Bool.and_eq_true, registrar_serves, ← Option.not_isSome, Bool.not_eq_true',
      ← Bool.not_eq_true, Registrar.shimFor?_isSome, registrar_claims]
    rfl
  have found : (before ++ i :: after).find? (fun j => (registrar c).1.serves j.ns &&
      ((registrar c).1.shimFor? ⟨j.ns, j.name⟩).isNone) = some i := by
    rw [List.find?_eq_some_iff_append]
    refine ⟨(missing_iff i).mpr missing, before, after, rfl, fun j member => ?_⟩
    rw [Bool.not_eq_true', ← Bool.not_eq_true, missing_iff]
    exact first j member
  rw [Registrar.checkImports, found]

theorem missing_of_checkImports {φ : Type} {r : Registrar φ} {imports : List Import} {e : HostError}
    (refused : r.checkImports imports = .error e) : ∃ ns name, e = .missingImport ns name := by
  unfold Registrar.checkImports at refused
  split at refused
  · cases refused
    exact ⟨_, _, rfl⟩
  · cases refused

theorem prepare_proper (g : Guest) (name : String) (args : List (BitVec 64)) :
    ProperResult (g.prepare name args) := by
  unfold prepare
  split
  · exact properResult_error nofun
  · split
    · exact properResult_error nofun
    · split
      · exact properResult_error nofun
      · exact properResult_ok _

theorem outcome_proper {x : Except Stop (List Wasm.Val)}
    (proper : ∀ stop, x = .error stop → stop.isLinking = false) : ProperResult (outcome x) := by
  cases x with
  | error stop => exact properResult_error (GuestError.isProper_stopped (proper stop rfl) .call)
  | ok vals =>
    unfold outcome
    dsimp only
    split
    · exact properResult_ok _
    · exact properResult_error nofun

/-- No call of a guest, however the guest came about, fails with an error that concerns imports. -/
theorem call_proper (g : Guest) (name : String) (args : List (BitVec 64)) :
    (g.call name args).Always fun x => ProperResult x.1 := by
  rw [call_eq]
  cases prepared : g.prepare name args with
  | error e =>
    have proper := g.prepare_proper name args
    rw [prepared] at proper
    exact fun err same => proper err (congrArg _ (Except.error.inj same))
  | ok run =>
    dsimp only
    rw [Action.bind_eq_bind, Action.always_bind]
    have called := Run.proper.call g.image.raises_fatal .embedder run.1 run.2
      (types_of_prepare prepared)
    apply (called g.store).mono
    exact fun p proper => outcome_proper proper

def LinkedResult (x : Except GuestError Guest) : Prop :=
  ∀ err, x = .error err → err.IsProper ∧ (err.stage = .instantiate ∨ err.stage = .setup)

theorem runSetup_proper (g : Guest) : g.runSetup.Always LinkedResult := by
  rw [runSetup_eq]
  split
  · intro _
    beta_reduce
    rw [Action.done_bind, Action.bind_eq_bind, Action.always_bind]
    apply (call_proper g setupExport []).mono
    rintro ⟨e | words, g⟩ proper
    · intro err same
      cases same
      exact ⟨proper e rfl, .inr rfl⟩
    · exact nofun
  · exact nofun

theorem bringUp_proper (m : Module) (i : Image) (c : Config) :
    (bringUp m i c).Always LinkedResult := by
  intro origin
  beta_reduce
  rw [Action.done_bind, Action.bind_eq_bind, Action.always_bind]
  apply (Run.proper.startUp m i.raises_fatal (freshStore m c origin)).mono
  rintro ⟨stop | _, s⟩ proper
  · intro err same
    cases same
    exact ⟨GuestError.isProper_stopped (proper stop rfl) .instantiate, .inl rfl⟩
  · exact fun _ => runSetup_proper _

/-- What an error in the making of a guest says of the imports of its module. -/
structure Classified (c : Config) (m : Module) (err : GuestError) : Prop where
  stage : err.stage ≠ .link
  configuration : err.isConfiguration = true ↔ err.stage = .imports
  unknown : err.failure = .stopped (.fault .unknownImport) → ∃ i ∈ m.imports, ¬ c.Serves i.ns

theorem Classified.proper {c : Config} {m : Module} {err : GuestError} (proper : err.IsProper)
    (stage : err.stage ≠ .link ∧ err.stage ≠ .imports) : Classified c m err where
  stage := stage.1
  configuration := by
    rw [proper.isConfiguration]
    exact iff_of_false nofun stage.2
  unknown unknown := absurd unknown proper.ne_unknownImport

/-- All imports from served namespaces are installed, so only the others can be unknown. -/
theorem Classified.link {c : Config} {m : Module} {f : Wasm.Fault}
    (checked : (registrar c).1.checkImports m.imports = .ok ())
    (refused : Image.link m (registrar c).1.linker = .error f) :
    Classified c m ⟨.instantiate, .stopped (.fault f)⟩ where
  stage := nofun
  configuration := iff_of_false nofun nofun
  unknown unknown := by
    cases unknown
    obtain ⟨i, member, undefined⟩ := Image.exists_import_of_unknown refused
    refine ⟨i, member, fun served => ?_⟩
    rw [Registrar.checkImports_eq_ok_iff] at checked
    have claimed := checked i member ((registrar_serves c i.ns).mpr served)
    rw [registrar_claims, ← registrar_defines, undefined] at claimed
    cases claimed

theorem instantiate_classified (m : Module) (c : Config) :
    (instantiate m c).Always fun made => ∀ err, made = .error err → Classified c m err := by
  rw [instantiate_eq]
  split
  · intro err same
    cases same
    exact .proper (GuestError.isProper_stopped rfl .load) ⟨nofun, nofun⟩
  · rw [registrar_ok]
    intro _
    beta_reduce
    rw [Action.done_bind]
    cases checked : (registrar c).1.checkImports m.imports with
    | error e =>
      intro err same
      cases same
      obtain ⟨ns, name, rfl⟩ := missing_of_checkImports checked
      exact ⟨nofun, iff_of_true rfl rfl, nofun⟩
    | ok =>
      cases linked : Image.link m (registrar c).1.linker with
      | error f =>
        intro err same
        cases same
        exact .link checked linked
      | ok image =>
        apply (bringUp_proper m image c).mono
        intro made linked err same
        obtain ⟨proper, stage⟩ := linked err same
        refine .proper proper ?_
        rcases stage with stage | stage
        · rw [stage]
          exact ⟨nofun, nofun⟩
        · rw [stage]
          exact ⟨nofun, nofun⟩

/-- What is told before the imports are checked. -/
def registeredRecord (c : Config) : Log.Record :=
  ⟨.info, "embridge::registrar", s!"Registered {(registrar c).1.bindings.length} host imports"⟩

/-- Nothing but the record of the log comes before the check of the imports. -/
theorem recordedLoad_of_missing {m : Module} {c : Config} (valid : m.isValid = true)
    {before after : List Import} {i : Import} (imports : m.imports = before ++ i :: after)
    (missing : i.Missing c) (first : ∀ j ∈ before, ¬ j.Missing c) :
    recordedLoad (some m) c = .ask (.log (registeredRecord c)) fun _ =>
      .done (.error ⟨.imports, .stopped (.host (.missingImport i.ns i.name))⟩, []) := by
  rw [recordedLoad, loadIn, instantiateIn]
  have known : (!m.isValid) = false := by rw [valid, Bool.not_true]
  rw [if_neg (by rw [known]; exact Bool.false_ne_true), registrar_ok]
  refine congrArg (Action.ask (.log (registeredRecord c))) (funext fun _ => ?_)
  simp only [imports, checkImports_of_missing missing first]
  rfl

/-- How problems with the imports of a module are told. -/
structure ImportsClassified (c : Config) (m : Module) : Prop where
  registered : (registrar c).2 = .ok ()
  recorded : Prod.fst <$> recordedLoad (some m) c = load (some m) c
  missing (before after : List Import) (i : Import) : m.imports = before ++ i :: after →
    i.Missing c → (∀ j ∈ before, ¬ j.Missing c) →
      recordedLoad (some m) c = .ask (.log (registeredRecord c)) fun _ =>
        .done (.error ⟨.imports, .stopped (.host (.missingImport i.ns i.name))⟩, [])
  made : (load (some m) c).Always fun made => ∀ err, made = .error err → Classified c m err
  called (g : Guest) (name : String) (args : List (BitVec 64)) :
    (g.call name args).Always fun x => ∀ err, x.1 = .error err → err.isConfiguration = false

/-- A valid module is to be made a guest. The host functions are all registered. If an import from a
served namespace has a name that none of them has, the first such import is named, whatever it is of
and whatever else is wrong; the record is empty then, so neither a function of the module nor one of
the host was called. Otherwise an import can be unknown only if its namespace is not served. Errors of
configuration come from the check of the imports, all of that check's errors are such, and no call of
any guest ever fails with one. -/
theorem load_classified (m : Module) (c : Config) (valid : m.isValid = true) :
    ImportsClassified c m where
  registered := by rw [registrar_eq]
  recorded := (along_load (History.invariant c) (some m)).erase Prod.fst fun _ _ ended => ended.1
  missing _ _ _ imports missing first := recordedLoad_of_missing valid imports missing first
  made := instantiate_classified m c
  called g name args :=
    (call_proper g name args).mono fun _ proper err same => (proper err same).isConfiguration

def strangeModule : Module where
  imports := [⟨"env", "getTempRet0", .func ⟨[], [.i32]⟩⟩, ⟨"elsewhere", "anything", .func ⟨[], []⟩⟩,
    ⟨"env", "no_such_call", .global⟩, ⟨"env", "nor_this", .func ⟨[], []⟩⟩]
  funcs := [⟨⟨[], []⟩, fun _ => Wasm.Body.trap .unreachable⟩]
  globals := [.i32 65536]
  start := some 3
  maxDepth := 10

theorem load_classified_strange :
    strangeModule.isValid = true ∧ ImportsClassified .default strangeModule :=
  ⟨by decide, load_classified strangeModule .default (by decide)⟩

end Guest

end GuestHost
