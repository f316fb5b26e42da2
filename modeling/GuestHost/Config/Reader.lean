import GuestHost.Config.Error
import GuestHost.Json.Skip

/-!
Reading a configuration. The text is an object of named settings or an array of settings in order.
It is read from left to right by a machine that takes one character at a time, so the first thing
wrong decides, and a value that will not do is reported before anything behind it is looked at.
-/

namespace GuestHost.Config

open Json (Quoted Numeral Skip isBlank)

structure Draft where
  fatal : Option FatalPolicy := none
  indirectCalls : Option IndirectCalls := none
  heapGrowth : Option Bool := none
  wasi : Option Bool := none
  captureOutput : Option Bool := none
  deriving DecidableEq, Repr

namespace Draft

def has (d : Draft) : Field → Bool
  | .fatal => d.fatal.isSome
  | .indirectCalls => d.indirectCalls.isSome
  | .heapGrowth => d.heapGrowth.isSome
  | .wasi => d.wasi.isSome
  | .captureOutput => d.captureOutput.isSome

def switch (d : Draft) (b : Bool) : Field → Draft
  | .heapGrowth => { d with heapGrowth := some b }
  | .wasi => { d with wasi := some b }
  | .captureOutput => { d with captureOutput := some b }
  | _ => d

def choose? (d : Draft) (name : String) : Field → Option Draft
  | .fatal => (FatalPolicy.ofName? name).map fun p => { d with fatal := some p }
  | .indirectCalls => (IndirectCalls.ofName? name).map fun p => { d with indirectCalls := some p }
  | _ => none

/-- Settings that were not given have their default. -/
def config (d : Draft) : Config where
  fatal := d.fatal.getD Config.default.fatal
  indirectCalls := d.indirectCalls.getD Config.default.indirectCalls
  heapGrowth := d.heapGrowth.getD Config.default.heapGrowth
  wasi := d.wasi.getD Config.default.wasi
  captureOutput := d.captureOutput.getD Config.default.captureOutput

end Draft

def Field.isSwitch (f : Field) : Bool := f.variants.isEmpty

/-- The outer brackets: of an object, or of an array with the settings it has not reached. -/
inductive Shape
  | object
  | array (left : List Field)
  deriving DecidableEq, Repr

inductive WordMeaning
  | switch (field : Field) (value : Bool)
  | unit
  | mismatch (found : Found) (wanted : Wanted)
  deriving DecidableEq, Repr

inductive Phase
  | top
  | opened
  | key (q : Quoted)
  | colon (field : Option Field)
  | value (field : Field)
  | skip (s : Skip)
  | word (left : List Char) (meaning : WordMeaning)
  | number (n : Numeral) (wanted : Wanted)
  | string (q : Quoted) (wanted : Wanted)
  | variant (q : Quoted) (field : Field)
  | box (field : Field)
  | boxKey (q : Quoted) (field : Field)
  | boxColon
  | boxValue
  | boxEnd
  | after
  | comma
  | finished
  deriving DecidableEq, Repr

structure Reader where
  draft : Draft := {}
  shape : Shape := .object
  phase : Phase := .top
  deriving DecidableEq, Repr

namespace Reader

def goto (r : Reader) (phase : Phase) : Reader := { r with phase := phase }

def mismatch (found : Found) (wanted : Wanted) : ParseError := .data (.invalidType found wanted)

/-- The value of a number decides only how it is reported. -/
def numberError (n : Numeral) (wanted : Wanted) : ParseError :=
  match n.value with
  | some v => mismatch (.number v) wanted
  | none => .malformed

def unwanted (r : Reader) (wanted : Wanted) (c : Char) : Except ParseError Reader :=
  match c with
  | '"' => .ok (r.goto (.string { strict := true } wanted))
  | '[' => .error (mismatch .sequence wanted)
  | '\x7b' => .error (mismatch .map wanted)
  | 'n' => .ok (r.goto (.word ['u', 'l', 'l'] (.mismatch .null wanted)))
  | 't' => .ok (r.goto (.word ['r', 'u', 'e'] (.mismatch (.boolean true) wanted)))
  | 'f' => .ok (r.goto (.word ['a', 'l', 's', 'e'] (.mismatch (.boolean false) wanted)))
  | c =>
    match Numeral.start? c with
    | some n => .ok (r.goto (.number n wanted))
    | none => .error .malformed

def stepTop (r : Reader) (c : Char) : Except ParseError Reader :=
  if isBlank c then .ok r
  else if c = '\x7b' then .ok { r with shape := .object, phase := .opened }
  else if c = '[' then .ok { r with shape := .array Field.all, phase := .opened }
  else r.unwanted .config c

def stepValue (r : Reader) (field : Field) (c : Char) : Except ParseError Reader :=
  if isBlank c then .ok (r.goto (.value field))
  else if field.isSwitch then
    if c = 't' then .ok (r.goto (.word ['r', 'u', 'e'] (.switch field true)))
    else if c = 'f' then .ok (r.goto (.word ['a', 'l', 's', 'e'] (.switch field false)))
    else r.unwanted .boolean c
  else if c = '"' then .ok (r.goto (.variant { strict := true } field))
  else if c = '\x7b' then .ok (r.goto (.box field))
  else .error .malformed

def stepElement (r : Reader) (left : List Field) (c : Char) : Except ParseError Reader :=
  match left with
  | [] => .error .malformed
  | field :: left => { r with shape := .array left }.stepValue field c

def stepOpened (r : Reader) (c : Char) : Except ParseError Reader :=
  if isBlank c then .ok r
  else match r.shape with
    | .object =>
      if c = '\x7d' then .ok (r.goto .finished)
      else if c = '"' then .ok (r.goto (.key { strict := true }))
      else .error .malformed
    | .array left =>
      if c = ']' then .ok (r.goto .finished) else r.stepElement left c

def stepAfter (r : Reader) (c : Char) : Except ParseError Reader :=
  if isBlank c then .ok (r.goto .after)
  else match r.shape with
    | .object =>
      if c = ',' then .ok (r.goto .comma)
      else if c = '\x7d' then .ok (r.goto .finished)
      else .error .malformed
    | .array left =>
      if c = ',' ∧ left ≠ [] then .ok (r.goto .comma)
      else if c = ']' then .ok (r.goto .finished)
      else .error .malformed

def stepComma (r : Reader) (c : Char) : Except ParseError Reader :=
  if isBlank c then .ok r
  else match r.shape with
    | .object => if c = '"' then .ok (r.goto (.key { strict := true })) else .error .malformed
    | .array left => if c = ']' then .error .malformed else r.stepElement left c

def takeKey (r : Reader) (key : String) : Except ParseError Reader :=
  match Field.ofKey? key with
  | none => .ok (r.goto (.colon none))
  | some field =>
    if r.draft.has field then .error (.data (.duplicateField field))
    else .ok (r.goto (.colon (some field)))

def takeVariant (r : Reader) (name : String) (field : Field) (next : Phase) :
    Except ParseError Reader :=
  match r.draft.choose? name field with
  | some draft => .ok { r with draft := draft, phase := next }
  | none => .error (.data (.unknownVariant name field))

def takeWord (r : Reader) : WordMeaning → Except ParseError Reader
  | .switch field b => .ok { r with draft := r.draft.switch b field, phase := .after }
  | .unit => .ok (r.goto .boxEnd)
  | .mismatch found wanted => .error (mismatch found wanted)

def stepQuoted (q : Quoted) (c : Char) (again : Quoted → Reader)
    (complete : String → Except ParseError Reader) : Except ParseError Reader :=
  match q.step c with
  | .more q => .ok (again q)
  | .done text => complete text
  | .malformed => .error .malformed

def step (r : Reader) (c : Char) : Except ParseError Reader :=
  match r.phase with
  | .top => r.stepTop c
  | .opened => r.stepOpened c
  | .key q => stepQuoted q c (fun q => r.goto (.key q)) r.takeKey
  | .colon field =>
    if isBlank c then .ok r
    else if c = ':' then .ok (r.goto (match field with
      | some field => .value field
      | none => .skip {}))
    else .error .malformed
  | .value field => r.stepValue field c
  | .skip s =>
    match s.step c with
    | .more s => .ok (r.goto (.skip s))
    | .done true => .ok (r.goto .after)
    | .done false => r.stepAfter c
    | .malformed => .error .malformed
  | .word [] _ => .error .malformed
  | .word (d :: left) meaning =>
    if c ≠ d then .error .malformed
    else if left.isEmpty then r.takeWord meaning
    else .ok (r.goto (.word left meaning))
  | .number n wanted =>
    match n.step c with
    | .more n => .ok (r.goto (.number n wanted))
    | .done () => .error (numberError n wanted)
    | .malformed => .error .malformed
  | .string q wanted =>
    stepQuoted q c (fun q => r.goto (.string q wanted)) fun text =>
      .error (mismatch (.string text) wanted)
  | .variant q field =>
    stepQuoted q c (fun q => r.goto (.variant q field)) fun name => r.takeVariant name field .after
  | .box field =>
    if isBlank c then .ok r
    else if c = '"' then .ok (r.goto (.boxKey { strict := true } field))
    else .error .malformed
  | .boxKey q field =>
    stepQuoted q c (fun q => r.goto (.boxKey q field)) fun name =>
      r.takeVariant name field .boxColon
  | .boxColon =>
    if isBlank c then .ok r
    else if c = ':' then .ok (r.goto .boxValue)
    else .error .malformed
  | .boxValue =>
    if isBlank c then .ok r
    else if c = 'n' then .ok (r.goto (.word ['u', 'l', 'l'] .unit))
    else r.unwanted .unit c
  | .boxEnd =>
    if isBlank c then .ok r
    else if c = '\x7d' then .ok (r.goto .after)
    else .error .malformed
  | .after => r.stepAfter c
  | .comma => r.stepComma c
  | .finished => if isBlank c then .ok r else .error .malformed

def finish (r : Reader) : Except ParseError Config :=
  match r.phase with
  | .finished => .ok r.draft.config
  | .number n wanted => .error (if n.isComplete then numberError n wanted else .cutShort)
  | .skip s => .error (if s.isCutNumber then .malformed else .cutShort)
  | _ => .error .cutShort

end Reader

def parse (text : List Char) : Except ParseError Config :=
  (text.foldlM Reader.step {}).bind Reader.finish

def ofText (text : String) : Except Error Config :=
  (parse text.toList).mapError .parse

def ofFile : Except FileError (List UInt8) → Except Error Config
  | .error error => .error (.file error)
  | .ok bytes =>
    match String.fromUTF8? ⟨bytes.toArray⟩ with
    | some text => ofText text
    | none => .error .notUtf8

end GuestHost.Config
