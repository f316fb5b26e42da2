import GuestHost.Action
import GuestHost.Session.Reply

/-!
Requests of an embedder to the host state of a guest.
-/

namespace GuestHost

inductive StagingRequest
  | set (value : BitVec 32)
  | get
  | split (value : BitVec 64)
  | combine (low : BitVec 32)
  deriving DecidableEq, Repr

def StagingRequest.serve (r : StagingRegister) : StagingRequest → Reply × StagingRegister
  | set value => (.nothing, ⟨value⟩)
  | get => (.signed r.value, r)
  | split value => let (low, r) := StagingRegister.split value; (.signed low, r)
  | combine low => (.signedLong (r.combine low), r)

inductive HostRequest
  | staging (q : StagingRequest)
  | describeStaging
  | record (notice : BitVec 32)
  | notices
  | output (stream : OutputStream)
  | push (stream : OutputStream) (bytes : List UInt8)
  | takeOutput
  | config
  | monotonic
  deriving DecidableEq, Repr

/-- `monotonic` reads the clock twice and says whether it did not go back. -/
def HostRequest.serve (h : HostState) : HostRequest → Action (Reply × HostState)
  | staging q => let (reply, r) := q.serve h.staging; return (reply, { h with staging := r })
  | describeStaging => return (.text h.staging.describe, h)
  | record notice => return (.nothing, h.recordGrowth notice)
  | notices => return (.notices h.notices, h)
  | output stream => return (.bytes (h.captured stream), h)
  | push stream bytes => return (.nothing, h.capture stream bytes)
  | takeOutput => return (.outputs h.stdout h.stderr, { h with stdout := [], stderr := [] })
  | config => return (.config h.config, h)
  | monotonic => do
    let a ← Action.request (.clock .monotonic)
    let b ← Action.request (.clock .monotonic)
    return (.flag ((h.elapsed a).toNat ≤ (h.elapsed b).toNat), h)

end GuestHost
