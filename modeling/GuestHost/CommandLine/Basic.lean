import GuestHost.CommandLine.Arguments
import GuestHost.Config.Reader
import GuestHost.Guest.Basic

/-!
The command line program: make a guest of a module file, call one export with whole numbers, and
print the results.
-/

namespace GuestHost.CommandLine

def successStatus : Nat := 0

def failureStatus : Nat := 1

def usageStatus : Nat := 2

/-- The status for the exit code of a guest. Codes that a process cannot report become a failure,
so that they never read as success. -/
def exitStatus (code : Int) : Nat :=
  if 0 ≤ code ∧ code ≤ 255 then code.toNat else failureStatus

def helpText : String :=
  "\n".intercalate [
    "Run an export of an Emscripten-built wasm module.",
    "",
    "Usage: embridge-run [OPTIONS] <WASM> <EXPORT> [ARGS]...",
    "",
    "Arguments:",
    "  <WASM>     Path to the `.wasm` module",
    "  <EXPORT>   Export to call",
    "  [ARGS]...  Integer arguments, one per export parameter",
    "",
    "Options:",
    "      --config <CONFIG>  JSON shim configuration",
    "      --trap             Fail the call instead of exiting when the guest hits an unsupported import",
    "  -h, --help             Print help",
    ""]

def failWith (message : String) : Action Nat := do
  Action.print .stderr (message ++ "\n")
  return failureStatus

def printResults : List (BitVec 64) → Action Unit
  | [] => return ()
  | w :: ws => do
    Action.print .stdout s!"{w.toNat}\n"
    printResults ws

/-- The status for the outcome of the call. A guest that exits says all there is to say. -/
def report : Except GuestError (List (BitVec 64)) → Action Nat
  | .ok words => do
    printResults words
    return successStatus
  | .error e =>
    match e.hostError? with
    | some (.guestExit code) => return exitStatus code
    | _ => failWith s!"Execution Error: {e.display}"

def readConfig (a : Arguments) : Action (Except Config.Error Config) := do
  let config ← match a.config with
    | none => pure (.ok Config.default)
    | some path => do
      let contents ← Action.request (.readFile path)
      pure (Config.ofFile contents)
  return config.map fun c => if a.trap then { c with fatal := .trap } else c

def callExport (g : Guest) (a : Arguments) : Action Nat := do
  Action.log .info "embridge_run" s!"Calling {a.exportName} with {a.args.length} arguments"
  let (result, _) ← g.call a.exportName (a.args.map (BitVec.ofInt 64))
  report result

def runWith (a : Arguments) : Action Nat := do
  match ← readConfig a with
  | .error e => failWith s!"Load Error: {e.message}"
  | .ok config =>
    match ← Action.request (.loadModule a.wasm) with
    | .error e => failWith s!"Load Error: {a.wasm}: {e.message}"
    | .ok m =>
      match ← Guest.load m config with
      | .error e => failWith s!"Instantiation Error: {e.display}"
      | .ok g => callExport g a

def run (argv : List String) : Action Nat :=
  match Arguments.parse argv with
  | .ok a => runWith a
  | .error .help => do
    Action.print .stdout helpText
    return successStatus
  | .error (.wrong reason) => do
    Action.print .stderr s!"error: {reason}\n"
    return usageStatus

end GuestHost.CommandLine
