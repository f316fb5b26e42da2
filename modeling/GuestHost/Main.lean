import GuestHost.CommandLine.Basic
import GuestHost.Log.Filter
import GuestHost.Wasm.Binary.Module
import Std.Time

/-!
The program itself: each request of the command line goes to the operating system.
-/

namespace GuestHost.Main

def fileError : IO.Error → FileError
  | .noFileOrDirectory .. => .notFound
  | .inappropriateType _ code _ =>
    if code = 21 ∨ code = -21 then .isDirectory else .notDirectory
  | .permissionDenied .. => .denied
  | .invalidArgument path code details =>
    if code = 36 ∨ code = -36 then .nameTooLong
    else .other (toString (IO.Error.invalidArgument path code details))
  | e => .other (toString e)

def readBytes (path : String) : IO (Except FileError (List UInt8)) := do
  try
    let bytes ← IO.FS.readBinFile path
    return .ok bytes.toList
  catch e => return .error (fileError e)

def pid : IO (BitVec 32) := do
  try
    let line ← IO.FS.readFile "/proc/self/stat"
    return BitVec.ofNat 32 (((line.takeWhile Char.isDigit).toString.toNat?).getD 0)
  catch _ => return 0

def realtimeNanos : IO Nat := do
  let now ← Std.Time.Timestamp.now
  return now.toNanosecondsSinceUnixEpoch.val.toNat

def randomBytes (n : Nat) : IO (Vector UInt8 n) := do
  let bytes ← IO.getRandomBytes (USize.ofNat n)
  return Vector.ofFn fun i => bytes.data.getD i 0

/-- Output goes out line by line, so a stream that takes no more says so at the end of a line. -/
def offer (stream : OutputStream) (bytes : List UInt8) : IO Bool := do
  let out ← match stream with
    | .stdout => IO.getStdout
    | .stderr => IO.getStderr
  try
    out.write ⟨bytes.toArray⟩
    if bytes.contains 10 || stream = .stderr then out.flush
    return true
  catch _ => return false

def timeText : IO String := do
  let now ← Std.Time.Timestamp.now
  let utc := Std.Time.DateTime.ofTimestampWithZone now Std.Time.TimeZone.UTC
  return utc.format "uuuu-MM-dd'T'HH:mm:ss'Z'"

def showRecord (filter : Log.Filter) (r : Log.Record) : IO Unit := do
  if filter.shows r then
    let line := "[" ++ (← timeText) ++ " " ++ (r.line.drop 1).toString
    let _ ← offer .stderr line.toUTF8.toList

def engine : Wasm.Engine where
  maxDepth := 10000
  maxRounds := Nat.pow 2 40

def answer (filter : Log.Filter) : (q : Request) → IO q.Answer
  | .pid => pid
  | .clock .realtime => realtimeNanos
  | .clock .monotonic => IO.monoNanosNow
  | .random count => randomBytes count
  | .offer stream bytes => offer stream bytes
  | .log record => showRecord filter record
  | .readFile path => readBytes path
  | .loadModule path => do
    let contents ← readBytes path
    return contents.map (Wasm.Binary.decode? engine)

def perform (filter : Log.Filter) : Action Nat → IO Nat
  | .done status => return status
  | .ask q next => do
    let a ← answer filter q
    perform filter (next a)
  | .exit status => return status

end GuestHost.Main

def main (args : List String) : IO UInt32 := do
  let setting ← IO.getEnv "RUST_LOG"
  let (filter, warnings) := GuestHost.Log.Filter.ofSetting setting
  for w in warnings do
    let _ ← GuestHost.Main.offer .stderr w.toUTF8.toList
  let status ← GuestHost.Main.perform filter (GuestHost.CommandLine.run args)
  (← IO.getStdout).flush
  return status.toUInt32
