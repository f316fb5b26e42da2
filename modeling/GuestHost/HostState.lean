import GuestHost.Config.Basic
import GuestHost.StagingRegister

/-!
What the host keeps for one guest.
-/

namespace GuestHost

inductive OutputStream
  | stdout
  | stderr
  deriving DecidableEq, Repr

/-- `origin` is the reading of the monotonic clock, in nanoseconds, when the state was made. The
growth notices stand in the order in which they came. -/
structure HostState where
  config : Config
  staging : StagingRegister := {}
  notices : List (BitVec 32) := []
  origin : Nat
  stdout : List UInt8 := []
  stderr : List UInt8 := []
  deriving DecidableEq, Repr

namespace HostState

def captured (h : HostState) : OutputStream → List UInt8
  | .stdout => h.stdout
  | .stderr => h.stderr

def capture (h : HostState) (stream : OutputStream) (bytes : List UInt8) : HostState :=
  match stream with
  | .stdout => { h with stdout := h.stdout ++ bytes }
  | .stderr => { h with stderr := h.stderr ++ bytes }

def recordGrowth (h : HostState) (notice : BitVec 32) : HostState :=
  { h with notices := h.notices ++ [notice] }

def elapsed (h : HostState) (now : Nat) : BitVec 64 := BitVec.ofNat 64 (now - h.origin)

end HostState

end GuestHost
