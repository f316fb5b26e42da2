/-!
Errors raised by the functions a host offers to its guest, and their wording.
-/

namespace GuestHost

inductive HostError
  | outOfBounds (offset length size : Nat)
  | unsupported (call : String)
  | aborted (call : String)
  | duplicateImport (ns name : String)
  | missingImport (ns name : String)
  | link (ns name reason : String)
  | noMemory
  | badTableEntry (index : Nat) (reason : String)
  | guestExit (code : Int)
  deriving DecidableEq, Repr

namespace HostError

/-- True of the errors that concern the set of imports and not a running guest. -/
def isConfiguration : HostError → Bool
  | duplicateImport .. | missingImport .. | link .. => true
  | _ => false

def message : HostError → String
  | outOfBounds offset length size =>
    s!"guest memory access out of bounds: offset {offset}, length {length}, memory size {size}"
  | unsupported call => s!"Called into {call}: unsupported operation"
  | aborted call => s!"Called into {call}: guest aborted"
  | duplicateImport ns name => s!"Configuration Error: import {ns}::{name} registered twice"
  | missingImport ns name =>
    s!"Configuration Error: guest imports {ns}::{name}, which has no shim"
  | link ns name reason => s!"Configuration Error: failed to link {ns}::{name}: {reason}"
  | noMemory => "guest does not export a linear memory named `memory`"
  | badTableEntry index reason => s!"indirect call through table slot {index} failed: {reason}"
  | guestExit code => s!"guest exited with code {code}"

end HostError

end GuestHost
