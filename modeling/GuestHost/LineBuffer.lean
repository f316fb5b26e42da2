/-!
A line-buffered stream whose device takes nothing. Bytes are held back until a line is complete, so
a chunk is refused only when it would have to reach the device.
-/

namespace GuestHost

/-- Bytes that wait for their line to be completed. -/
structure LineBuffer where
  held : List UInt8 := []
  deriving DecidableEq, Repr

namespace LineBuffer

def capacity : Nat := 1024

def newline : UInt8 := 10

def hold (b : LineBuffer) (bytes : List UInt8) : Bool × LineBuffer :=
  if b.held.length + bytes.length ≤ capacity ∧ bytes.length < capacity then
    (true, ⟨b.held ++ bytes⟩)
  else (false, b)

/-- Is the chunk taken, and what is held then? A chunk with a complete line has to reach the
device; so does what is held when its last line is complete. -/
def offer (b : LineBuffer) (bytes : List UInt8) : Bool × LineBuffer :=
  if bytes.contains newline then
    if b.held.isEmpty then (false, b)
    else
      let lines := (bytes.reverse.dropWhile (· ≠ newline)).reverse
      (false, (b.hold lines).2)
  else if b.held.getLast? = some newline then (false, b)
  else b.hold bytes

def takes (earlier : List (List UInt8)) (bytes : List UInt8) : Bool :=
  let b := earlier.foldl (fun (b : LineBuffer) chunk => (b.offer chunk).2) {}
  (b.offer bytes).1

end LineBuffer

end GuestHost
