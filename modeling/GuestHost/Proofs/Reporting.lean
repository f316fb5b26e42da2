import GuestHost.Proofs.FatalPolicy
import GuestHost.Proofs.Linked

/-!
How computations of guests report fatal errors. What fails with a fatal error has told the log of it
last, and of no other error; and the error is that of a function which the guest's image has.
-/

namespace GuestHost

open Wasm (Module)

variable {α β : Type}

/-! Computations -/

def Trace.Plain (t : Trace) : Prop := ∀ x ∈ t, x.request.isGrave = false

theorem Trace.Plain.cons {q : Request} {answer : q.Answer} {t : Trace} (first : q.isGrave = false)
    (plain : t.Plain) : Trace.Plain (⟨q, answer⟩ :: t) :=
  List.forall_mem_cons.mpr ⟨first, plain⟩

/-- Nothing is reported but the fatal error, if there is one, and that comes last. -/
def Trace.Reports (o : Option HostError) (t : Trace) : Prop :=
  ∃ u : Trace, u.Plain ∧ t = u ++ (o.map Exchange.report).toList

theorem Trace.Plain.level_ne {t : Trace} (plain : t.Plain) {record : Log.Record}
    (told : record ∈ t.records) : record.level ≠ .error := by
  obtain ⟨x, member, same⟩ := List.mem_filterMap.mp told
  have light := plain x member
  unfold Exchange.record? at same
  split at same
  · cases same
    intro level
    simp [Request.isGrave, level] at light
  · cases same

theorem Trace.Reports.errors {o : Option HostError} {t : Trace} (reports : t.Reports o) :
    t.records.filter (·.level = .error) = (o.map fatalRecord).toList := by
  obtain ⟨u, plain, rfl⟩ := reports
  have none_before : u.records.filter (·.level = .error) = [] := by
    rw [List.filter_eq_nil_iff]
    intro record told level
    exact plain.level_ne told (of_decide_eq_true level)
  have split : Trace.records (u ++ (o.map Exchange.report).toList) =
      u.records ++ (o.map fatalRecord).toList := by
    cases o <;> simp [Trace.records, Exchange.report, Exchange.record?]
  rw [split, List.filter_append, none_before]
  cases o <;> rfl

theorem Trace.Reports.getLast? {o : Option HostError} {t : Trace} (reports : t.Reports o)
    {e : HostError} (fatal : e ∈ o) : t.records.getLast? = some (fatalRecord e) := by
  obtain ⟨u, _, rfl⟩ := reports
  cases fatal
  simp [Trace.records, Exchange.report, Exchange.record?]

namespace Action

variable {p : FatalPolicy} {Ends : Option HostError → α → Prop}
  {Ends' : Option HostError → β → Prop}

/-- A fatal error is reported once, and the computation ends at once: with a value, or with the
process, as the policy has it. `Ends` tells the values with which it may end, after a fatal error or
without one. -/
inductive Reports (p : FatalPolicy) (Ends : Option HostError → α → Prop) : Action α → Prop
  | done (a : α) (ends : Ends none a) : Reports p Ends (.done a)
  | ask (q : Request) {k : q.Answer → Action α} (plain : q.isGrave = false)
      (next : ∀ answer, Reports p Ends (k answer)) : Reports p Ends (.ask q k)
  | fatal (e : HostError) (a : α) (traps : p = .trap) (ends : Ends (some e) a) :
      Reports p Ends (.ask (.log (fatalRecord e)) fun _ => .done a)
  | quit (e : HostError) (exits : p = .exit) (isFatal : e.isFatal = true) :
      Reports p Ends (.ask (.log (fatalRecord e)) fun _ =>
        .ask (.offer .stderr (fatalLine e)) fun _ => .exit fatalStatus)

/-- What follows a fatal error has to hand it on without another exchange. -/
theorem Reports.bind {x : Action α} {f : α → Action β} (h : Reports p Ends x)
    (next : ∀ a, Ends none a → Reports p Ends' (f a))
    (stops : ∀ e a, Ends (some e) a → ∃ b, f a = .done b ∧ Ends' (some e) b) :
    Reports p Ends' (x.bind f) := by
  induction h with
  | done a ends => exact next a ends
  | ask q plain _ ih => exact .ask q plain ih
  | fatal e a traps ends =>
    obtain ⟨b, stopped, ends⟩ := stops e a ends
    rw [ask_bind, done_bind, stopped]
    exact .fatal e b traps ends
  | quit e exits isFatal => exact .quit e exits isFatal

theorem Reports.run {x : Action α} (h : Reports p Ends x) (w : World) (t : Trace) :
    (∃ (o : Option HostError) (a : α) (u : Trace), x.run w t = (.value a, t ++ u) ∧ Ends o a ∧
      u.Reports o) ∨
    p = .exit ∧ ∃ (e : HostError) (u : Trace) (taken : Bool), e.isFatal = true ∧ u.Plain ∧
      x.run w t = (.exited fatalStatus, t ++ (u ++ [.report e, .lastWords e taken])) := by
  induction h generalizing t with
  | done a ends => exact .inl ⟨none, a, [], by simp [Action.run], ends, [], nofun, rfl⟩
  | ask q plain _ ih =>
    rcases ih (w t q) (t ++ [⟨q, w t q⟩]) with ⟨o, a, _, ran, ends, u, rest, rfl⟩ |
      ⟨exits, e, u, taken, isFatal, rest, ran⟩
    · refine .inl ⟨o, a, _, ?_, ends, ⟨q, w t q⟩ :: u, rest.cons plain, rfl⟩
      simpa [Action.run] using ran
    · refine .inr ⟨exits, e, ⟨q, w t q⟩ :: u, taken, isFatal, rest.cons plain, ?_⟩
      simpa [Action.run] using ran
  | fatal e a _ ends => exact .inl ⟨some e, a, [.report e], rfl, ends, [], nofun, rfl⟩
  | quit e exits isFatal =>
    refine .inr ⟨exits, e, [], w (t ++ [.report e]) (.offer .stderr (fatalLine e)), isFatal, nofun,
      ?_⟩
    simp [Action.run, Exchange.report, Exchange.lastWords]

end Action

/-! Runs of guests and host functions -/

def Stop.fatal? : Stop → Option HostError
  | host e => if e.isFatal then some e else none
  | fault _ => none

namespace Run

def fatal? : Except Stop α → Option HostError
  | .error stop => stop.fatal?
  | .ok _ => none

variable {Raised : HostError → Prop}

structure EndsBy (Raised : HostError → Prop) (c : Config) (o : Option HostError)
    (x : Except Stop α × Store) : Prop where
  fatal : fatal? x.1 = o
  raised : ∀ e ∈ o, Raised e
  config : x.2.host.config = c

theorem EndsBy.calm {c : Config} {x : Except Stop α × Store} (calm : fatal? x.1 = none)
    (config : x.2.host.config = c) : EndsBy Raised c none x := ⟨calm, nofun, config⟩

def Reporting (Raised : HostError → Prop) (x : Run α) : Prop :=
  ∀ s, (x.startAt s).Reports s.host.config.fatal (EndsBy Raised s.host.config)

theorem Reporting.bind {x : Run α} {f : α → Run β} (hx : Reporting Raised x)
    (hf : ∀ a, Reporting Raised (f a)) : Reporting Raised (x >>= f) := by
  intro s
  rw [startAt_bind]
  apply (hx s).bind
  · rintro ⟨stop | a, s'⟩ ends
    · exact .done _ ⟨ends.fatal, nofun, ends.config⟩
    · have rest := hf a s'
      rw [ends.config] at rest
      exact rest
  · rintro e ⟨stop | a, s'⟩ ends
    · exact ⟨(.error stop, s'), rfl, ends.fatal, ends.raised, ends.config⟩
    · cases ends.fatal

theorem reporting_pure (a : α) : Reporting Raised (Pure.pure a : Run α) :=
  fun _ => .done _ (.calm rfl rfl)

theorem reporting_ask (q : Request) (plain : q.isGrave = false) : Reporting Raised (Run.ask q) := by
  intro s
  rw [startAt_ask]
  exact .ask q plain fun answer => .done _ (.calm rfl rfl)

theorem reporting_fatal (e : HostError) (raised : Raised e) (isFatal : e.isFatal = true) :
    Reporting Raised (Run.fatal e : Run α) := by
  intro s
  rw [startAt_fatal]
  cases policy : s.host.config.fatal with
  | trap =>
    have stopped : fatal? (.error (.host e) : Except Stop α) = some e := if_pos isFatal
    refine .fatal e _ rfl ⟨stopped, fun e' same => ?_, rfl⟩
    cases same
    exact raised
  | exit => exact .quit e rfl isFatal

/-- Code of the guest reports nothing itself, and cannot change the configuration. -/
theorem codeReporting (Raised : HostError → Prop) :
    CodeCongruence fun _ x _ => Reporting Raised x where
  pure := reporting_pure
  bind hx hf := hx.bind hf
  fault _ _ _ := .done _ (.calm rfl rfl)
  store same s := same s s (.refl s) s
  modify f same s := by
    have kept := congrArg Store.host (same s s.host)
    exact .done _ (.calm rfl (congrArg HostState.config kept))

theorem reporting_deliver (stream : OutputStream) (chunks : List (List UInt8)) :
    Reporting Raised (WasiCall.deliver stream chunks) := by
  intro s
  rw [WasiCall.startAt_deliver]
  split
  · refine .done _ (.calm rfl ?_)
    cases stream <;> rfl
  · exact (codeReporting Raised).sendAll stream (fun bytes => reporting_ask (.offer stream bytes) rfl)
      chunks s

theorem reporting_needing (f : Feature) (call : String) (raised : Raised (.unsupported call))
    {x : Run α} (h : Reporting Raised x) : Reporting Raised (Run.needing f call x) := by
  intro s
  rw [startAt_needing]
  split
  · exact h s
  · exact reporting_fatal _ raised rfl s

/-- Guests and host functions report the fatal errors that may be raised, and nothing else. -/
theorem reporting (isFatal : ∀ e, Raised e → e.isFatal = true) :
    Congruence Raised fun _ x _ => Reporting Raised x where
  toCodeCongruence := codeReporting Raised
  fail e plain s := by
    have other : e.isFatal = false := (Bool.or_eq_false_iff.mp plain).2
    have calm : (Stop.host e).fatal? = none := if_neg (Bool.eq_false_iff.mp other)
    exact .done _ (.calm calm rfl)
  fatal e raised := reporting_fatal e raised (isFatal e raised)
  ask q plain _ := reporting_ask q plain
  deliver := reporting_deliver
  needing f call _ _ raised h := reporting_needing f call raised h
  stage _ _ := .done _ (.calm rfl rfl)
  record _ _ := .done _ (.calm rfl rfl)

end Run

def Image.Escalates (i : Image) (e : HostError) : Prop :=
  ∃ type f, Code.host type f ∈ i.code ∧ e = f.escalation

theorem Image.raises_escalates (i : Image) : i.Raises i.Escalates :=
  fun type f member => ⟨type, f, member, rfl⟩

theorem Image.reporting (i : Image) :
    Run.Congruence i.Escalates fun _ x _ => Run.Reporting i.Escalates x :=
  Run.reporting fun _ ⟨_, f, _, same⟩ => same ▸ f.escalation_isFatal

/-- A function that calls no other reports nothing but its own fatal error. -/
theorem HostFunction.reporting (f : HostFunction) (plain : ∀ t, f ≠ trampoline t) (c : Context)
    (args : List Wasm.Val) : Run.Reporting (· = f.escalation) (f.run c args) := by
  have own : Run.Congruence (· = f.escalation) fun _ x _ => Run.Reporting (· = f.escalation) x :=
    Run.reporting fun _ same => same ▸ f.escalation_isFatal
  cases f with
  | primitive p => exact @Run.Congruence.primitive _ _ c.callee own c p rfl args
  | trampoline t => exact absurd rfl (plain t)
  | syscall s => exact own.syscall s rfl
  | wasi w => exact @Run.Congruence.wasi _ _ c.callee own c w rfl args

/-! Guests -/

def GuestError.fatal? (err : GuestError) : Option HostError :=
  match err.failure with
  | .stopped stop => stop.fatal?
  | _ => none

def GuestError.report (err : GuestError) : Log.Record :=
  ⟨.error, "embridge::fatal", "fatal: " ++ err.failure.message⟩

theorem GuestError.fatalRecord_of_fatal? {err : GuestError} {e : HostError}
    (behind : err.fatal? = some e) : err.hostError? = some e ∧ fatalRecord e = err.report := by
  obtain ⟨stage, failure⟩ := err
  cases failure with
  | stopped stop =>
    cases stop with
    | host e' =>
      have same : (if e'.isFatal then some e' else none) = some e := behind
      split at same
      · cases same
        exact ⟨rfl, rfl⟩
      · cases same
    | fault _ => cases behind
  | _ => cases behind

/-- A module imports the host function of which this is the fatal error, under any of its names. -/
def Escalates (m : Option Module) (e : HostError) : Prop :=
  ∃ m' ∈ m, ∃ i ∈ m'.imports, ∃ f : HostFunction,
    i.ns = f.ns ∧ i.name ∈ f.names ∧ (e = .unsupported f.name ∨ e = .aborted f.name)

theorem HostFunction.escalation_names (f : HostFunction) :
    f.escalation = .unsupported f.name ∨ f.escalation = .aborted f.name := by
  unfold escalation
  split
  · exact .inr rfl
  · exact .inl rfl

theorem Image.Escalates.of_link {m : Module} {c : Config} {image : Image}
    (linked : link m (Guest.registrar c).1.linker = .ok image) {e : HostError}
    (raised : image.Escalates e) : GuestHost.Escalates (some m) e := by
  obtain ⟨ds, found, rfl⟩ := link_eq_ok_iff.mp linked
  obtain ⟨type, f, member, rfl⟩ := raised
  rcases List.mem_append.mp member with imported | own
  · obtain ⟨d, defined, same⟩ := List.mem_map.mp imported
    cases same
    obtain ⟨i, member, here⟩ := found_of_imports found defined
    obtain ⟨_, ns, name⟩ := Guest.installed_of_find? here
    exact ⟨m, rfl, i, member, d.func, ns, name, d.func.escalation_names⟩
  · obtain ⟨_, _, other⟩ := List.mem_map.mp own
    cases other

namespace Guest

def fatal? : Except GuestError α → Option HostError
  | .error err => err.fatal?
  | .ok _ => none

theorem fatal?_outcome (r : Except Stop (List Wasm.Val)) : fatal? (outcome r) = Run.fatal? r := by
  cases r with
  | error stop => rfl
  | ok vals =>
    unfold outcome
    dsimp only
    split
    · rfl
    · rfl

theorem fatal?_prepare {g : Guest} {name : String} {args : List (BitVec 64)} {err : GuestError}
    (refused : g.prepare name args = .error err) : err.fatal? = none := by
  unfold prepare at refused
  split at refused
  · cases refused
    rfl
  · split at refused
    · cases refused
      rfl
    · split at refused
      · cases refused
        rfl
      · cases refused

structure CalledBy (g : Guest) (o : Option HostError)
    (x : Except GuestError (List (BitVec 64)) × Guest) : Prop where
  fatal : fatal? x.1 = o
  raised : ∀ e ∈ o, g.image.Escalates e
  image : x.2.image = g.image
  config : x.2.store.host.config = g.store.host.config

theorem reports_call (g : Guest) (name : String) (args : List (BitVec 64)) :
    (g.call name args).Reports g.store.host.config.fatal (CalledBy g) := by
  rw [call_eq]
  cases prepared : g.prepare name args with
  | error err => exact .done _ ⟨fatal?_prepare prepared, nofun, rfl, rfl⟩
  | ok run =>
    have called := g.image.reporting.call g.image.raises_escalates .embedder run.1 run.2
      (types_of_prepare prepared)
    apply (called g.store).bind
    · rintro ⟨r, s⟩ ends
      exact .done _ ⟨(fatal?_outcome r).trans ends.fatal, nofun, rfl, ends.config⟩
    · rintro e ⟨r, s⟩ ends
      exact ⟨_, rfl, (fatal?_outcome r).trans ends.fatal, ends.raised, rfl, ends.config⟩

structure MadeOf (m : Option Module) (c : Config) (g : Guest) : Prop where
  config : g.store.host.config = c
  escalates : ∀ e, g.image.Escalates e → Escalates m e

variable {m : Option Module} {c : Config}

theorem MadeOf.called {g : Guest} {o : Option HostError}
    {x : Except GuestError (List (BitVec 64)) × Guest} (made : g.MadeOf m c)
    (ends : CalledBy g o x) :
    x.2.MadeOf m c :=
  ⟨ends.config.trans made.config, fun e raised => made.escalates e (ends.image ▸ raised)⟩

structure MadeBy (m : Option Module) (c : Config) (o : Option HostError)
    (x : Except GuestError Guest) : Prop where
  fatal : fatal? x = o
  raised : ∀ e ∈ o, Escalates m e
  guest : ∀ g, x = .ok g → g.MadeOf m c

theorem MadeBy.failed {o : Option HostError} {err : GuestError} (fatal : err.fatal? = o)
    (raised : ∀ e ∈ o, Escalates m e) : MadeBy m c o (.error err) :=
  ⟨fatal, raised, fun _ same => by cases same⟩

theorem MadeBy.error {err : GuestError} (calm : err.fatal? = none) :
    MadeBy m c none (.error err) := .failed calm nofun

theorem MadeBy.ok {g : Guest} (made : g.MadeOf m c) : MadeBy m c none (.ok g) := by
  refine ⟨rfl, nofun, fun g' same => ?_⟩
  cases same
  exact made

theorem reports_runSetup {g : Guest} (made : g.MadeOf m c) :
    g.runSetup.Reports c.fatal (MadeBy m c) := by
  rw [runSetup_eq]
  split
  · apply Action.Reports.ask _ rfl
    intro _
    have called := reports_call g setupExport []
    rw [made.config] at called
    apply called.bind
    · rintro ⟨err | words, g'⟩ ends
      · exact .done _ (.error ends.fatal)
      · exact .done _ (.ok (made.called ends))
    · rintro e ⟨err | words, g'⟩ ends
      · exact ⟨.error { err with stage := .setup }, rfl,
          .failed ends.fatal fun e raised => made.escalates e (ends.raised e raised)⟩
      · cases ends.fatal
  · exact .done _ (.ok made)

theorem reports_bringUp (m : Module) {image : Image} (c : Config)
    (escalates : ∀ e, image.Escalates e → Escalates (some m) e) :
    (bringUp m image c).Reports c.fatal (MadeBy (some m) c) := by
  apply Action.Reports.ask _ rfl
  intro origin
  apply (image.reporting.startUp m image.raises_escalates (freshStore m c origin)).bind
  · rintro ⟨stop | _, s⟩ ends
    · exact .done _ (.error ends.fatal)
    · exact .ask _ rfl fun _ => reports_runSetup ⟨ends.config, escalates⟩
  · rintro e ⟨stop | _, s⟩ ends
    · exact ⟨.error ⟨.instantiate, .stopped stop⟩, rfl,
        .failed ends.fatal fun e raised => escalates e (ends.raised e raised)⟩
    · cases ends.fatal

theorem reports_instantiate (m : Module) (c : Config) :
    (instantiate m c).Reports c.fatal (MadeBy (some m) c) := by
  rw [instantiate_eq]
  split
  · exact .done (Except.error _) (.error rfl)
  · rw [registrar_ok]
    apply Action.Reports.ask _ rfl
    intro _
    rw [Action.done_bind]
    cases checked : (registrar c).1.checkImports m.imports with
    | error e =>
      have calm : (Stop.host e).fatal? = none := by
        unfold Registrar.checkImports at checked
        split at checked
        · cases checked
          rfl
        · cases checked
      exact .done _ (.error calm)
    | ok =>
      cases linked : Image.link m (registrar c).1.linker with
      | error f => exact .done (Except.error _) (.error rfl)
      | ok image => exact reports_bringUp m c fun _ raised => raised.of_link linked

theorem reports_load (m : Option Module) (c : Config) :
    (load m c).Reports c.fatal (MadeBy m c) := by
  cases m with
  | none => exact .done (Except.error _) (.error rfl)
  | some m => exact reports_instantiate m c

end Guest

end GuestHost
