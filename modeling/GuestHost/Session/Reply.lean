import GuestHost.Guest.Error
import GuestHost.Config.Error

/-!
What an embedder is told in answer to a request.
-/

namespace GuestHost

inductive Reply
  | nothing
  | word (w : BitVec 32)
  | signed (w : BitVec 32)
  | signedLong (w : BitVec 64)
  | size (n : Nat)
  | flag (b : Bool)
  | bytes (bs : List UInt8)
  | outputs (stdout stderr : List UInt8)
  | words (ws : List (BitVec 64))
  | notices (ws : List (BitVec 32))
  | text (s : String)
  | config (c : Config)
  | noGuest
  | noMemory
  | growRefused
  | hostError (e : HostError)
  | guestError (e : GuestError)
  | configError (e : Config.Error)
  deriving DecidableEq, Repr

end GuestHost
