import GuestHost.Config.Basic

/-!
The compact object text of a configuration, with every setting in order.
-/

namespace GuestHost.Config

def Field.text (c : Config) : Field → String
  | .fatal => "\"" ++ c.fatal.name ++ "\""
  | .indirectCalls => "\"" ++ c.indirectCalls.name ++ "\""
  | .heapGrowth => toString c.heapGrowth
  | .wasi => toString c.wasi
  | .captureOutput => toString c.captureOutput

def toText (c : Config) : String :=
  let pairs := Field.all.map fun f => "\"" ++ f.key ++ "\":" ++ f.text c
  "\x7b" ++ ",".intercalate pairs ++ "\x7d"

end GuestHost.Config
