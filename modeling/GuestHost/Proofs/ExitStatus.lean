import GuestHost.CommandLine.Basic
import GuestHost.Proofs.Endings
import GuestHost.Proofs.Linked

/-!
Guests that exit while the command line program runs them. A guest's code runs at three places: in
its start function, in its setup export and in the requested export. Main statement: the exit code
becomes the status of the process at the last of them; at the other two the status is that of a
failure.
-/

namespace GuestHost

open Wasm (Val Module)

namespace Guest

structure Linked (m : Module) (config : Config) (image : Image) : Prop where
  valid : m.isValid = true
  installed : (registrar config).2 = .ok ()
  provided : (registrar config).1.checkImports m.imports = .ok ()
  linked : Image.link m (registrar config).1.linker = .ok image

/-- What happens with a linked module up to the end of its start function. -/
def opening (m : Module) (config : Config) (image : Image) : Action (Except Stop Unit × Store) := do
  Action.log .info "embridge::registrar"
    s!"Registered {(registrar config).1.bindings.length} host imports"
  let origin ← Action.request (.clock .monotonic)
  (startUp m image).startAt (freshStore m config origin)

def settling (m : Module) (g : Guest) (func : Nat) (vals : List Val) :
    Action (Except Stop (List Val) × Store) := do
  Action.log .info target
    s!"Instantiated guest ({m.imports.length} imports, memory: {g.image.exportsMemory})"
  Action.log .debug target s!"Running {setupExport}"
  (g.image.call .embedder func vals).startAt g.store

theorem hasExport_of_prepare {g : Guest} {name : String} {args : List (BitVec 64)}
    {func : Nat} {vals : List Val} (prepared : g.prepare name args = .ok (func, vals)) :
    g.hasExport name = true := by
  cases found : g.image.exports? name .func with
  | none => simp [prepare, export?, found] at prepared
  | some index => simp [hasExport, found]

theorem exists_run_opening (w : World) (t : Trace) (m : Module) (config : Config) (image : Image) :
    ∃ t' : Trace, (opening m config image).run w t =
      ((startUp m image).startAt (freshStore m config (w t' (.clock .monotonic)))).run w
        (t' ++ [⟨.clock .monotonic, w t' (.clock .monotonic)⟩]) :=
  ⟨_, rfl⟩

def opened (m : Module) (image : Image) : Except Stop Unit × Store → Action (Except GuestError Guest)
  | (.error stop, _) => return .error ⟨.instantiate, .stopped stop⟩
  | (.ok (), store) => do
    Action.log .info target
      s!"Instantiated guest ({m.imports.length} imports, memory: {image.exportsMemory})"
    runSetup ⟨image, store⟩

def settled (image : Image) : Except Stop (List Val) × Store → Except GuestError Guest
  | (r, store) => match outcome r with
    | .ok _ => .ok ⟨image, store⟩
    | .error e => .error { e with stage := .setup }

theorem load_of_linked {m : Module} {config : Config} {image : Image}
    (h : Linked m config image) :
    load (some m) config = (opening m config image).bind (opened m image) := by
  obtain ⟨valid, installed, provided, linked⟩ := h
  have registered : registrar config = ((registrar config).1, .ok ()) := by
    rw [← installed]
  rw [load_some, instantiate_eq, valid, registered]
  simp only [Bool.not_true, Bool.false_eq_true, if_false, provided, linked, bringUp_eq, opening,
    Action.bind_eq_bind, Action.bind_assoc]
  refine congrArg (Action.bind _) (funext fun _ => ?_)
  refine congrArg (Action.bind _) (funext fun origin => ?_)
  refine congrArg (Action.bind _) (funext fun (r, s) => ?_)
  cases r <;> rfl

theorem opened_of_prepare {m : Module} {image : Image} {s : Store} {func : Nat} {vals : List Val}
    (prepared : (Guest.mk image s).prepare setupExport [] = .ok (func, vals)) :
    opened m image (.ok (), s) =
      (settling m ⟨image, s⟩ func vals).bind fun p => .done (settled image p) := by
  have found := hasExport_of_prepare prepared
  rw [opened, runSetup_eq, if_pos found, call_eq, prepared]
  simp only [settling, Action.bind_eq_bind, Action.bind_assoc]
  refine congrArg (Action.bind _) (funext fun _ => ?_)
  refine congrArg (Action.bind _) (funext fun _ => ?_)
  refine congrArg (Action.bind _) (funext fun (r, s) => ?_)
  dsimp only [settled]
  cases outcome r <;> rfl

end Guest

namespace CommandLine

def calling (g : Guest) (a : Arguments) (func : Nat) (vals : List Val) :
    Action (Except Stop (List Val) × Store) := do
  Action.log .info "embridge_run" s!"Calling {a.exportName} with {a.args.length} arguments"
  (g.image.call .embedder func vals).startAt g.store

/-- Code of the guest is stopped, in a world and after some exchanges. The stage tells which. -/
inductive Stops (w : World) (t : Trace) (m : Module) (config : Config) (a : Arguments) :
    Stage → Stop → Prop
  | start {image : Image} {stop : Stop} {s : Store} {u : Trace}
      (linked : Guest.Linked m config image)
      (stopped : (Guest.opening m config image).run w t = (.value (.error stop, s), u)) :
      Stops w t m config a .instantiate stop
  | setup {image : Image} {func : Nat} {vals : List Val} {stop : Stop} {s s' : Store}
      {u u' : Trace} (linked : Guest.Linked m config image)
      (started : (Guest.opening m config image).run w t = (.value (.ok (), s), u))
      (prepared : (Guest.mk image s).prepare Guest.setupExport [] = .ok (func, vals))
      (stopped : (Guest.settling m ⟨image, s⟩ func vals).run w u =
        (.value (.error stop, s'), u')) :
      Stops w t m config a .setup stop
  | call {g : Guest} {func : Nat} {vals : List Val} {stop : Stop} {s : Store} {u u' : Trace}
      (made : (Guest.load (some m) config).run w t = (.value (.ok g), u))
      (prepared : g.prepare a.exportName (a.args.map (BitVec.ofInt 64)) = .ok (func, vals))
      (stopped : (calling g a func vals).run w u = (.value (.error stop, s), u')) :
      Stops w t m config a .call stop

variable {w : World} {t : Trace} {m : Module} {config : Config} {a : Arguments} {stage : Stage}
  {stop : Stop}

/-- A guest that is stopped while it is made is not made, and the error tells the stage. -/
theorem Stops.load (stops : Stops w t m config a stage stop) (early : stage ≠ .call) :
    ∃ u, (Guest.load (some m) config).run w t = (.value (.error ⟨stage, .stopped stop⟩), u) := by
  cases stops with
  | start linked stopped =>
    rw [Guest.load_of_linked linked, Action.run_bind, stopped]
    exact ⟨_, rfl⟩
  | setup linked started prepared stopped =>
    rw [Guest.load_of_linked linked, Action.run_bind, started]
    dsimp only
    rw [Guest.opened_of_prepare prepared, Action.run_bind, stopped]
    exact ⟨_, rfl⟩
  | call => exact absurd rfl early

theorem callExport_of_prepare {g : Guest} {func : Nat} {vals : List Val}
    (prepared : g.prepare a.exportName (a.args.map (BitVec.ofInt 64)) = .ok (func, vals)) :
    callExport g a = (calling g a func vals).bind fun p => report (Guest.outcome p.1) := by
  rw [callExport, Guest.call_eq, prepared]
  simp only [calling, Action.bind_eq_bind, Action.bind_assoc]
  rfl

theorem run_of_readable {argv : List String} {t' : Trace} {contents : Option Module}
    (accepted : Arguments.parse argv = .ok a)
    (readable : (readConfig a).run w t = (.value (.ok config), t'))
    (isModule : w t' (.loadModule a.wasm) = .ok contents) :
    (run argv).run w t =
      ((Guest.load contents config).bind fun
        | .error e => failWith s!"Instantiation Error: {e.display}"
        | .ok g => callExport g a).run w (t' ++ [⟨.loadModule a.wasm, .ok contents⟩]) := by
  rw [run, accepted]
  dsimp only
  rw [runWith, Action.bind_eq_bind, Action.run_bind, readable]
  dsimp only
  rw [Action.request, Action.bind_eq_bind, Action.ask_bind, Action.run, isModule]
  rfl

/-- The status of the process after a guest has exited: that of a failure, unless the requested
export was running. -/
theorem Stops.status {argv : List String} {t' : Trace} {code : Int}
    (accepted : Arguments.parse argv = .ok a)
    (readable : (readConfig a).run w t = (.value (.ok config), t'))
    (isModule : w t' (.loadModule a.wasm) = .ok (some m))
    (exits : Stops w (t' ++ [⟨.loadModule a.wasm, .ok (some m)⟩]) m config a stage
      (.host (.guestExit code))) :
    ((run argv).run w t).1 =
      .value (if stage = .call then exitStatus code else failureStatus) := by
  rw [run_of_readable accepted readable isModule, Action.run_bind]
  by_cases late : stage = .call
  · subst late
    cases exits with
    | call made prepared stopped =>
      rw [made]
      dsimp only
      rw [callExport_of_prepare prepared, Action.run_bind, stopped]
      rfl
  · obtain ⟨u, failed⟩ := exits.load late
    rw [failed, if_neg late]
    rfl

def exitingFunc : Wasm.Func := ⟨⟨[], []⟩, fun _ => Wasm.Body.callFunc 0 [.i32 7]⟩

def exitingModule : Module where
  imports := [⟨"wasi_snapshot_preview1", "proc_exit", .func ⟨[.i32], []⟩⟩]
  funcs := [exitingFunc]
  exports := [⟨"run", .func, 1⟩]
  start := some 1
  maxDepth := 10

def exitingImage : Image where
  code := [.host ⟨[.i32], []⟩ (.wasi .procExit), .guest exitingFunc]
  exports := [⟨"run", .func, 1⟩]
  maxDepth := 10

theorem exitingModule_linked :
    Guest.Linked exitingModule .default exitingImage := by
  have linked : Image.link exitingModule (Guest.registrar .default).1.linker = .ok exitingImage :=
    Image.link_only (f := .wasi .procExit) rfl (.head _) (HostFunction.wasi_mem_set .procExit)
  exact ⟨by decide, by rw [Guest.registrar_ok], Guest.checkImports_of_link linked, linked⟩

end CommandLine

end GuestHost
