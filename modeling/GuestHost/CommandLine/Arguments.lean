/-!
Arguments of the command line: two names, then whole numbers, with options anywhere before a bare
double dash.
-/

namespace GuestHost.CommandLine

structure Arguments where
  wasm : String
  exportName : String
  args : List Int := []
  config : Option String := none
  trap : Bool := false
  deriving DecidableEq, Repr

inductive Refusal
  | help
  | wrong (reason : String)
  deriving DecidableEq, Repr

def digitsValue? (cs : List Char) : Option Nat :=
  if cs.isEmpty || !cs.all Char.isDigit then none
  else some (cs.foldl (fun n c => 10 * n + (c.toNat - '0'.toNat)) 0)

/-- A sign or none, then digits; the number has to fit 64 bits with a sign. -/
def int64? (text : String) : Option Int := do
  let value : Int ← match text.toList with
    | '-' :: ds => (digitsValue? ds).map fun n => -(n : Int)
    | '+' :: ds => (digitsValue? ds).map fun n => (n : Int)
    | ds => (digitsValue? ds).map fun n => (n : Int)
  if -Nat.pow 2 63 ≤ value ∧ value < Nat.pow 2 63 then some value else none

/-- Digits, with at most one point after the first and at most one mark of an exponent, which is
neither first nor last. -/
def looksNumeric (cs : List Char) : Bool :=
  let (whole, rest) := (cs.takeWhile (· ≠ 'e'), cs.dropWhile (· ≠ 'e'))
  let mantissaOk := whole.all (fun c => c.isDigit || c = '.') && whole.count '.' ≤ 1 &&
    whole.head? ≠ some '.'
  match rest with
  | [] => mantissaOk
  | _ :: power => mantissaOk && !whole.isEmpty && !power.isEmpty && power.all Char.isDigit

structure Reading where
  positionals : List String := []
  numbers : List Int := []
  config : Option String := none
  awaitsConfig : Bool := false
  trap : Bool := false
  onlyPositionals : Bool := false
  deriving DecidableEq, Repr

namespace Reading

def wrong {α : Type} (reason : String) : Except Refusal α := .error (.wrong reason)

def settled (r : Reading) : Except Refusal Unit :=
  if r.awaitsConfig then wrong "a value is required for '--config <CONFIG>' but none was supplied"
  else .ok ()

def positional (r : Reading) (text : String) : Except Refusal Reading := do
  r.settled
  match r.positionals with
  | [] =>
    if text = "" then wrong "a value is required for '<WASM>' but none was supplied"
    else .ok { r with positionals := [text] }
  | [wasm] => .ok { r with positionals := [wasm, text] }
  | _ =>
    match int64? text with
    | some n => .ok { r with numbers := r.numbers ++ [n] }
    | none => wrong s!"invalid value '{text}' for '[ARGS]...'"

def takeConfig (r : Reading) (path : String) : Except Refusal Reading :=
  if path = "" then wrong "a value is required for '--config <CONFIG>' but none was supplied"
  else .ok { r with config := some path, awaitsConfig := false }

def word (r : Reading) (text : String) : Except Refusal Reading :=
  if r.awaitsConfig then r.takeConfig text else r.positional text

def long (r : Reading) (name : String) (value : Option String) : Except Refusal Reading := do
  match name, value with
  | "help", none =>
    r.settled
    .error .help
  | "trap", none =>
    r.settled
    if r.trap then wrong "the argument '--trap' cannot be used multiple times"
    else .ok { r with trap := true }
  | "config", value =>
    r.settled
    if r.config.isSome then wrong "the argument '--config <CONFIG>' cannot be used multiple times"
    else match value with
      | some path => r.takeConfig path
      | none => .ok { r with awaitsConfig := true }
  | name, _ => wrong s!"unexpected argument '--{name}' found"

/-- Where numbers are expected a word that looks like a negative one is a value. -/
def short (r : Reading) (text : String) (letters : List Char) : Except Refusal Reading := do
  if 2 ≤ r.positionals.length && looksNumeric letters then r.word text
  else if letters.head? = some 'h' then
    r.settled
    .error .help
  else wrong s!"unexpected argument '{text}' found"

def step (r : Reading) (text : String) : Except Refusal Reading :=
  if r.onlyPositionals then r.positional text
  else match text.toList with
    | ['-', '-'] => .ok { r with onlyPositionals := true }
    | '-' :: '-' :: rest =>
      let name := String.ofList (rest.takeWhile (· ≠ '='))
      let value := match rest.dropWhile (· ≠ '=') with
        | _ :: value => some (String.ofList value)
        | [] => none
      r.long name value
    | ['-'] => r.word text
    | '-' :: letters => r.short text letters
    | _ => r.word text

def finish (r : Reading) : Except Refusal Arguments := do
  r.settled
  match r.positionals with
  | [wasm, exportName] => .ok ⟨wasm, exportName, r.numbers, r.config, r.trap⟩
  | _ => wrong "the following required arguments were not provided: <WASM> <EXPORT>"

end Reading

def Arguments.parse (argv : List String) : Except Refusal Arguments :=
  (argv.foldlM Reading.step {}).bind Reading.finish

end GuestHost.CommandLine
