import GuestHost.Json.Numeral

/-!
Passing over a value of any kind and depth, one character at a time. Only its form is looked at.
-/

namespace GuestHost.Json

def isBlank (c : Char) : Bool := c = ' ' || c = '\t' || c = '\n' || c = '\r'

inductive Bracket
  | array
  | object
  deriving DecidableEq, Repr

inductive SkipMode
  | value
  | opened
  | key
  | colon
  | after
  | word (left : List Char)
  | number (n : Numeral)
  | quoted (q : Quoted) (isKey : Bool)
  deriving DecidableEq, Repr

structure Skip where
  brackets : List Bracket := []
  mode : SkipMode := .value
  deriving DecidableEq, Repr

def wordRest? : Char → Option (List Char)
  | 'n' => some ['u', 'l', 'l']
  | 't' => some ['r', 'u', 'e']
  | 'f' => some ['a', 'l', 's', 'e']
  | _ => none

namespace Skip

def ended : List Bracket → Progress Skip Unit
  | [] => .done ()
  | b :: bs => .more ⟨b :: bs, .after⟩

def stepAfter (brackets : List Bracket) (c : Char) : Progress Skip Unit :=
  if isBlank c then .more ⟨brackets, .after⟩
  else match brackets, c with
    | .array :: _, ',' => .more ⟨brackets, .value⟩
    | .object :: _, ',' => .more ⟨brackets, .key⟩
    | .array :: bs, ']' => ended bs
    | .object :: bs, '\x7d' => ended bs
    | _, _ => .malformed

def stepValue (brackets : List Bracket) (mode : SkipMode) (c : Char) : Progress Skip Unit :=
  if isBlank c then .more ⟨brackets, mode⟩
  else if c = '"' then .more ⟨brackets, .quoted { strict := false } false⟩
  else if c = '[' then .more ⟨.array :: brackets, .opened⟩
  else if c = '\x7b' then .more ⟨.object :: brackets, .opened⟩
  else match wordRest? c, Numeral.start? c with
    | some left, _ => .more ⟨brackets, .word left⟩
    | none, some n => .more ⟨brackets, .number n⟩
    | none, none => .malformed

def stepKey (brackets : List Bracket) (mode : SkipMode) (c : Char) : Progress Skip Unit :=
  if isBlank c then .more ⟨brackets, mode⟩
  else if c = '"' then .more ⟨brackets, .quoted { strict := false } true⟩
  else .malformed

/-- The result is true when `c` itself belongs to the value, and false when the value, a number,
ended before it. -/
def step (s : Skip) (c : Char) : Progress Skip Bool :=
  let within : Progress Skip Unit → Progress Skip Bool
    | .more s => .more s
    | .done () => .done true
    | .malformed => .malformed
  match s.mode with
  | .value => within (stepValue s.brackets .value c)
  | .opened =>
    match s.brackets, c with
    | .array :: bs, ']' => within (ended bs)
    | .object :: bs, '\x7d' => within (ended bs)
    | .object :: _, c => within (stepKey s.brackets .opened c)
    | _, c => within (stepValue s.brackets .opened c)
  | .key => within (stepKey s.brackets .key c)
  | .colon =>
    if isBlank c then .more s
    else if c = ':' then .more ⟨s.brackets, .value⟩
    else .malformed
  | .after => within (stepAfter s.brackets c)
  | .word [] => .malformed
  | .word (d :: left) =>
    if c ≠ d then .malformed
    else if left.isEmpty then within (ended s.brackets)
    else .more ⟨s.brackets, .word left⟩
  | .number n =>
    match n.step c with
    | .more n => .more ⟨s.brackets, .number n⟩
    | .done () => if s.brackets.isEmpty then .done false else within (stepAfter s.brackets c)
    | .malformed => .malformed
  | .quoted q isKey =>
    match q.step c with
    | .more q => .more ⟨s.brackets, .quoted q isKey⟩
    | .done _ => if isKey then .more ⟨s.brackets, .colon⟩ else within (ended s.brackets)
    | .malformed => .malformed

/-- At the end of the text a number that is not complete is malformed; anything else is cut short. -/
def isCutNumber (s : Skip) : Bool :=
  match s.mode with
  | .number n => !n.isComplete
  | _ => false

end Skip

end GuestHost.Json
