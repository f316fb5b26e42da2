import GuestHost.Proofs.ExitStatus
import GuestHost.Proofs.Reporting

/-!
How the command line program ends. It takes four stages in order: configuration, module file, making
the guest, and the call. Main statement: the first stage that fails decides what the program says
and with which status it ends, and it ends well exactly if the call is made and returns, or exits
with 0.
-/

namespace GuestHost

open Wasm (Module)

def Ending.status : Ending Nat → Nat
  | value status | exited status => status

namespace CommandLine

/-! The stages, each after those before it went well. Every stage tells all that was exchanged. -/

section Stages

variable (w : World) (a : Arguments)

def Arguments.adjusted (a : Arguments) (c : Config) : Config :=
  if a.trap then { c with fatal := .trap } else c

/-- There is a configuration: the one in the file that was given, or else the default. -/
inductive Configured : Config → Trace → Prop
  | default (absent : a.config = none) : Configured (a.adjusted .default) []
  | file {path : String} {contents : List UInt8} {c : Config} (given : a.config = some path)
      (read : w [] (.readFile path) = .ok contents) (parsed : Config.ofFile (.ok contents) = .ok c) :
      Configured (a.adjusted c) [⟨.readFile path, .ok contents⟩]

/-- The module file was read. What it holds need not be a module. -/
inductive Loaded : Config → Option Module → Trace → Prop
  | intro {c : Config} {t : Trace} {m : Option Module} (configured : Configured w a c t)
      (read : w t (.loadModule a.wasm) = .ok m) : Loaded c m (t ++ [⟨.loadModule a.wasm, .ok m⟩])

inductive Made : Config → Guest → Trace → Prop
  | intro {c : Config} {m : Option Module} {t t' : Trace} {g : Guest} (loaded : Loaded w a c m t)
      (made : (Guest.load m c).run w t = (.value (.ok g), t')) : Made c g t'

def Arguments.words (a : Arguments) : List (BitVec 64) := a.args.map (BitVec.ofInt 64)

def announced : Exchange :=
  ⟨.log ⟨.info, "embridge_run", s!"Calling {a.exportName} with {a.args.length} arguments"⟩, ()⟩

inductive Called : Except GuestError (List (BitVec 64)) → Trace → Prop
  | intro {c : Config} {g g' : Guest} {t t' : Trace} {r : Except GuestError (List (BitVec 64))}
      (made : Made w a c g t)
      (called : (g.call a.exportName a.words).run w (t ++ [announced a]) = (.value (r, g'), t')) :
      Called r t'

/-- The call returned, or the guest exited from it with success. -/
def Succeeds : Prop :=
  ∃ r t, Called w a r t ∧
    ((∃ words, r = .ok words) ∨ ∃ err, r = .error err ∧ err.hostError? = some (.guestExit 0))

end Stages

inductive Verdict
  | unread (e : Config.Error)
  | noFile (e : FileError)
  | unmade (e : GuestError)
  | failed (e : GuestError)
  | exited (code : Int)
  | returned (words : List (BitVec 64))
  | fatal (e : HostError)

namespace Verdict

def status : Verdict → Nat
  | exited code => exitStatus code
  | returned _ => successStatus
  | _ => failureStatus

/-- The one line on the error stream that tells why it failed. -/
def diagnostic? (a : Arguments) : Verdict → Option String
  | unread e => some s!"Load Error: {e.message}"
  | noFile e => some s!"Load Error: {a.wasm}: {e.message}"
  | unmade e => some s!"Instantiation Error: {e.display}"
  | failed e => some s!"Execution Error: {e.display}"
  | fatal e => some s!"fatal: {e.message}"
  | exited _ | returned _ => none

def results : Verdict → List String
  | returned words => words.map fun word => s!"{word.toNat}"
  | _ => []

end Verdict

def line (text : String) : List UInt8 := (text ++ "\n").toUTF8.toList

def Verdict.output (a : Arguments) (v : Verdict) : List Request :=
  v.results.map (.offer .stdout <| line ·) ++ (v.diagnostic? a).toList.map (.offer .stderr <| line ·)

/-- The stage that decides, with all that is exchanged up to the verdict. -/
inductive Decides (w : World) (a : Arguments) : Verdict → Trace → Prop
  | config {path : String} {e : Config.Error} (given : a.config = some path)
      (failed : Config.ofFile (w [] (.readFile path)) = .error e) :
      Decides w a (.unread e) [⟨.readFile path, w [] (.readFile path)⟩]
  | file {c : Config} {t : Trace} {e : FileError} (configured : Configured w a c t)
      (failed : w t (.loadModule a.wasm) = .error e) :
      Decides w a (.noFile e) (t ++ [⟨.loadModule a.wasm, .error e⟩])
  | make {c : Config} {m : Option Module} {t t' : Trace} {err : GuestError}
      (loaded : Loaded w a c m t)
      (failed : (Guest.load m c).run w t = (.value (.error err), t')) : Decides w a (.unmade err) t'
  | call {t : Trace} {err : GuestError} (called : Called w a (.error err) t)
      (other : ∀ code, err.hostError? ≠ some (.guestExit code)) : Decides w a (.failed err) t
  | exit {t : Trace} {err : GuestError} {code : Int} (called : Called w a (.error err) t)
      (exits : err.hostError? = some (.guestExit code)) : Decides w a (.exited code) t
  | result {t : Trace} {words : List (BitVec 64)} (called : Called w a (.ok words) t) :
      Decides w a (.returned words) t
  | fatalMake {c : Config} {m : Option Module} {t t' : Trace} {e : HostError} {taken : Bool}
      (loaded : Loaded w a c m t) (exits : c.fatal = .exit) (isFatal : e.isFatal = true)
      (quit : (Guest.load m c).run w t =
        (.exited fatalStatus, t' ++ [.report e, .lastWords e taken])) :
      Decides w a (.fatal e) (t' ++ [.report e])
  | fatalCall {c : Config} {g : Guest} {t t' : Trace} {e : HostError} {taken : Bool}
      (made : Made w a c g t) (exits : c.fatal = .exit) (isFatal : e.isFatal = true)
      (quit : (g.call a.exportName a.words).run w (t ++ [announced a]) =
        (.exited fatalStatus, t' ++ [.report e, .lastWords e taken])) :
      Decides w a (.fatal e) (t' ++ [.report e])

/-- The run of the program: it ends with the status of the verdict, after it has said what there is
to say and nothing more. -/
structure Concludes (w : World) (a : Arguments) (x : Ending Nat × Trace) (v : Verdict) : Prop where
  status : x.1.status = v.status
  course : ∃ t u, Decides w a v t ∧ x.2 = t ++ u ∧ u.map (·.request) = v.output a ∧
    x.2.sent .stdout = t.sent .stdout ++ v.results.flatMap line

variable {w : World} {a : Arguments} {argv : List String}

theorem Configured.run_eq {c : Config} {t : Trace} (configured : Configured w a c t) :
    (readConfig a).run w [] = (.value (.ok c), t) := by
  cases configured with
  | default absent => simp [readConfig, absent, Action.run, Arguments.adjusted, Except.map]
  | file given read parsed =>
    simp [readConfig, given, Action.run, Action.request, read, parsed, Arguments.adjusted, Except.map]

theorem Loaded.run_eq {c : Config} {m : Option Module} {t : Trace} (loaded : Loaded w a c m t)
    (accepted : Arguments.parse argv = .ok a) :
    (run argv).run w [] = ((Guest.load m c).bind fun
      | .error e => failWith s!"Instantiation Error: {e.display}"
      | .ok g => callExport g a).run w t := by
  obtain ⟨configured, read⟩ := loaded
  exact run_of_readable accepted configured.run_eq read

theorem Made.run_eq {c : Config} {g : Guest} {t : Trace} (made : Made w a c g t)
    (accepted : Arguments.parse argv = .ok a) :
    (run argv).run w [] = ((g.call a.exportName a.words).bind fun x => report x.1).run w
      (t ++ [announced a]) := by
  obtain ⟨loaded, made⟩ := made
  rw [loaded.run_eq accepted, Action.run_bind, made]
  rfl

theorem Called.run_eq {r : Except GuestError (List (BitVec 64))} {t : Trace} (called : Called w a r t)
    (accepted : Arguments.parse argv = .ok a) : (run argv).run w [] = (report r).run w t := by
  obtain ⟨made, called⟩ := called
  rw [made.run_eq accepted, Action.run_bind, called]

/-! What the program says in the end -/

theorem run_failWith (w : World) (t : Trace) (message : String) :
    ∃ taken, (failWith message).run w t =
      (.value failureStatus, t ++ [⟨.offer .stderr (line message), taken⟩]) := ⟨_, rfl⟩

theorem run_printResults (accepts : ∀ t bytes, w t (.offer .stdout bytes) = true)
    (words : List (BitVec 64)) (t : Trace) :
    (printResults words).run w t = (.value (), t ++ words.map fun word =>
      ⟨.offer .stdout (line s!"{word.toNat}"), true⟩) := by
  induction words generalizing t with
  | nil => simp [printResults, Action.run]
  | cons word words ih =>
    simp only [printResults, Action.print, Action.bind_eq_bind, Action.ask_bind, Action.done_bind,
      Action.run, accepts, ih, List.map_cons, List.append_assoc, List.singleton_append]
    rfl

theorem Concludes.of_diagnostic {v : Verdict} {message : String} {t : Trace} {taken : Bool}
    {ending : Ending Nat} (decides : Decides w a v t) (status : ending.status = v.status)
    (told : v.diagnostic? a = some message) (nothing : v.results = []) :
    Concludes w a (ending, t ++ [⟨.offer .stderr (line message), taken⟩]) v := by
  refine ⟨status, t, [⟨.offer .stderr (line message), taken⟩], decides, rfl, ?_, ?_⟩
  · simp [Verdict.output, told, nothing]
  · cases taken <;> simp [nothing, Trace.sent, Exchange.sent]

theorem Concludes.of_failWith {v : Verdict} {message : String} {t : Trace} (decides : Decides w a v t)
    (status : v.status = failureStatus) (told : v.diagnostic? a = some message)
    (nothing : v.results = []) : Concludes w a ((failWith message).run w t) v := by
  obtain ⟨taken, ran⟩ := run_failWith w t message
  rw [ran]
  exact .of_diagnostic decides status.symm told nothing

theorem Called.concludes (accepts : ∀ t bytes, w t (.offer .stdout bytes) = true)
    {r : Except GuestError (List (BitVec 64))} {t : Trace} (called : Called w a r t) :
    ∃ v, Concludes w a ((report r).run w t) v := by
  cases r with
  | ok words =>
    have ran : (report (.ok words)).run w t = (.value successStatus, t ++ words.map fun word =>
        ⟨.offer .stdout (line s!"{word.toNat}"), true⟩) := by
      rw [report, Action.bind_eq_bind, Action.run_bind, run_printResults accepts]
      rfl
    rw [ran]
    refine ⟨.returned words, rfl, t, _, .result called, rfl, ?_, ?_⟩
    · simp [Verdict.output, Verdict.results, Verdict.diagnostic?]
    · simp [Verdict.results, Trace.sent, Exchange.sent, List.flatMap_map]
  | error err =>
    unfold report
    dsimp only
    split
    · rename_i code exits
      refine ⟨.exited code, rfl, t, [], .exit called exits, ?_, rfl, ?_⟩
      · simp [Action.run]
      · simp [Action.run, Verdict.results]
    · rename_i other
      exact ⟨.failed err, .of_failWith (.call called other) rfl rfl rfl⟩

/-- A fatal error that ends the process is told like any other failure. -/
theorem Concludes.of_over {t' : Trace} {e : HostError} {taken : Bool}
    (decides : Decides w a (.fatal e) (t' ++ [.report e])) :
    Concludes w a (.exited fatalStatus, t' ++ [.report e, .lastWords e taken]) (.fatal e) := by
  have said : t' ++ [Exchange.report e, .lastWords e taken] =
      (t' ++ [.report e]) ++ [⟨.offer .stderr (line s!"fatal: {e.message}"), taken⟩] := by
    rw [List.append_assoc]
    rfl
  rw [said]
  exact .of_diagnostic decides rfl rfl rfl

theorem Made.concludes (accepted : Arguments.parse argv = .ok a)
    (accepts : ∀ t bytes, w t (.offer .stdout bytes) = true) {c : Config} {g : Guest} {t : Trace}
    (config : g.store.host.config = c) (made : Made w a c g t) :
    ∃ v, Concludes w a ((run argv).run w []) v := by
  rw [made.run_eq accepted, Action.run_bind]
  have reports := Guest.reports_call g a.exportName a.words
  rcases reports.run w (t ++ [announced a]) with ⟨o, ⟨r, g'⟩, u, ran, ends, told⟩ |
    ⟨exits, e, u, taken, isFatal, plain, quit⟩
  · rw [ran]
    exact Called.concludes accepts (.intro made ran)
  · rw [quit]
    rw [← List.append_assoc] at quit ⊢
    exact ⟨.fatal e, .of_over (.fatalCall made (config ▸ exits) isFatal quit)⟩

theorem Loaded.concludes (accepted : Arguments.parse argv = .ok a)
    (accepts : ∀ t bytes, w t (.offer .stdout bytes) = true) {c : Config} {m : Option Module}
    {t : Trace} (loaded : Loaded w a c m t) : ∃ v, Concludes w a ((run argv).run w []) v := by
  rcases (Guest.reports_load m c).run w t with ⟨o, made | g, u, ran, ends, told⟩ |
    ⟨exits, e, u, taken, isFatal, plain, quit⟩
  · rw [loaded.run_eq accepted, Action.run_bind, ran]
    exact ⟨.unmade _, .of_failWith (.make loaded ran) rfl rfl rfl⟩
  · exact Made.concludes accepted accepts (ends.guest g rfl).config (.intro loaded ran)
  · rw [loaded.run_eq accepted, Action.run_bind, quit]
    rw [← List.append_assoc] at quit ⊢
    exact ⟨.fatal e, .of_over (.fatalMake loaded exits isFatal quit)⟩

theorem Configured.concludes (accepted : Arguments.parse argv = .ok a)
    (accepts : ∀ t bytes, w t (.offer .stdout bytes) = true) {c : Config} {t : Trace}
    (configured : Configured w a c t) : ∃ v, Concludes w a ((run argv).run w []) v := by
  cases read : w t (.loadModule a.wasm) with
  | ok m => exact Loaded.concludes accepted accepts (.intro configured read)
  | error e =>
    have ran : (run argv).run w [] = (failWith s!"Load Error: {a.wasm}: {e.message}").run w
        (t ++ [⟨.loadModule a.wasm, .error e⟩]) := by
      rw [run, accepted]
      dsimp only
      rw [runWith, Action.bind_eq_bind, Action.run_bind, configured.run_eq]
      dsimp only
      rw [Action.request, Action.bind_eq_bind, Action.ask_bind, Action.run, read]
      rfl
    rw [ran]
    exact ⟨.noFile e, .of_failWith (.file configured read) rfl rfl rfl⟩

theorem exitStatus_eq_zero_iff (code : Int) : exitStatus code = 0 ↔ code = 0 := by
  unfold exitStatus failureStatus
  split <;> omega

theorem Concludes.succeeds {x : Ending Nat × Trace} {v : Verdict} (concludes : Concludes w a x v)
    (well : x.1.status = 0) : Succeeds w a := by
  obtain ⟨t, _, decides, _⟩ := concludes.course
  rw [concludes.status] at well
  cases decides with
  | result called => exact ⟨_, t, called, .inl ⟨_, rfl⟩⟩
  | exit called exits =>
    obtain rfl := (exitStatus_eq_zero_iff _).mp well
    exact ⟨_, t, called, .inr ⟨_, rfl, exits⟩⟩
  | _ => cases well

theorem Succeeds.status (accepted : Arguments.parse argv = .ok a)
    (accepts : ∀ t bytes, w t (.offer .stdout bytes) = true) (succeeds : Succeeds w a) :
    ((run argv).run w []).1.status = 0 := by
  obtain ⟨r, t, called, ⟨words, rfl⟩ | ⟨err, rfl, exits⟩⟩ := succeeds
  · rw [called.run_eq accepted, report, Action.bind_eq_bind, Action.run_bind,
      run_printResults accepts]
    rfl
  · rw [called.run_eq accepted, report, exits]
    rfl

end CommandLine

end GuestHost
