/-!
Reading a quoted text one character at a time, from behind its opening quote to its closing one.
-/

namespace GuestHost.Json

inductive Progress (σ : Type) (ρ : Type)
  | more (state : σ)
  | done (result : ρ)
  | malformed
  deriving Repr

/-- Where a reader stands inside a quoted text. `pair` marks the second half of a surrogate pair,
whose first half is carried along. -/
inductive QuotedMode
  | plain
  | escape
  | hex (seen : List Char)
  | pairSlash (high : Nat)
  | pairLetter (high : Nat)
  | pairHex (high : Nat) (seen : List Char)
  deriving DecidableEq, Repr

/-- The characters so far are in `taken`, the last one first. A reader that is not `strict` takes
any four hexadecimal digits after `\u`; a strict one wants them to name a character. -/
structure Quoted where
  strict : Bool
  taken : List Char := []
  mode : QuotedMode := .plain
  deriving DecidableEq, Repr

def hexValue? (c : Char) : Option Nat :=
  if c.isDigit then some (c.toNat - '0'.toNat)
  else if 'a' ≤ c ∧ c ≤ 'f' then some (c.toNat - 'a'.toNat + 10)
  else if 'A' ≤ c ∧ c ≤ 'F' then some (c.toNat - 'A'.toNat + 10)
  else none

def hexNumber? (cs : List Char) : Option Nat :=
  cs.foldlM (fun n c => (hexValue? c).map (16 * n + ·)) 0

def simpleEscape? : Char → Option Char
  | '"' => some '"'
  | '\\' => some '\\'
  | '/' => some '/'
  | 'b' => some '\x08'
  | 'f' => some '\x0c'
  | 'n' => some '\n'
  | 'r' => some '\r'
  | 't' => some '\t'
  | _ => none

def isHighSurrogate (n : Nat) : Bool := 0xD800 ≤ n && n < 0xDC00

def isLowSurrogate (n : Nat) : Bool := 0xDC00 ≤ n && n < 0xE000

def joinSurrogates (high low : Nat) : Char :=
  Char.ofNat (0x10000 + (high - 0xD800) * 0x400 + (low - 0xDC00))

/-- Four bytes are taken for the digits before they are looked at. -/
def hexFull (seen : List Char) : Bool := 4 ≤ (seen.map Char.utf8Size).foldr (· + ·) 0

namespace Quoted

def text (q : Quoted) : String := String.ofList q.taken.reverse

def take (q : Quoted) (c : Char) : Quoted := { q with taken := c :: q.taken, mode := .plain }

def goto (q : Quoted) (mode : QuotedMode) : Quoted := { q with mode := mode }

def takeUnit (q : Quoted) (n : Nat) : Progress Quoted String :=
  if !q.strict then .more (q.goto .plain)
  else if isLowSurrogate n then .malformed
  else if isHighSurrogate n then .more (q.goto (.pairSlash n))
  else .more (q.take (Char.ofNat n))

def step (q : Quoted) (c : Char) : Progress Quoted String :=
  match q.mode with
  | .plain =>
    if c = '"' then .done q.text
    else if c = '\\' then .more (q.goto .escape)
    else if c.toNat < 0x20 then .malformed
    else .more (q.take c)
  | .escape =>
    if c = 'u' then .more (q.goto (.hex []))
    else match simpleEscape? c with
      | some d => .more (q.take d)
      | none => .malformed
  | .hex seen =>
    let seen := seen ++ [c]
    if hexFull seen then
      match hexNumber? seen with
      | some n => q.takeUnit n
      | none => .malformed
    else .more (q.goto (.hex seen))
  | .pairSlash high => if c = '\\' then .more (q.goto (.pairLetter high)) else .malformed
  | .pairLetter high => if c = 'u' then .more (q.goto (.pairHex high [])) else .malformed
  | .pairHex high seen =>
    let seen := seen ++ [c]
    if hexFull seen then
      match hexNumber? seen with
      | some n => if isLowSurrogate n then .more (q.take (joinSurrogates high n)) else .malformed
      | none => .malformed
    else .more (q.goto (.pairHex high seen))

end Quoted

end GuestHost.Json
