import GuestHost.Json.Skip

/-!
JSON texts as syntax trees. A tree keeps all that a text has, its white space and its escapes among
it, so each tree has one text, and a text is well formed if it is that of a tree.
-/

namespace GuestHost.Json

/-! White space -/

inductive Blank
  | space
  | tab
  | lineFeed
  | carriageReturn

def Blank.char : Blank → Char
  | space => ' '
  | tab => '\t'
  | lineFeed => '\n'
  | carriageReturn => '\r'

abbrev Gap := List Blank

def Gap.text (g : Gap) : List Char := g.map Blank.char

/-! Strings -/

structure HexDigit where
  value : Fin 16
  upper : Bool

def HexDigit.char (d : HexDigit) : Char :=
  if d.value < 10 then Char.ofNat ('0'.toNat + d.value)
  else Char.ofNat ((if d.upper then 'A' else 'a').toNat + (d.value - 10))

inductive Escape
  | quote
  | backslash
  | slash
  | backspace
  | formFeed
  | lineFeed
  | carriageReturn
  | tab

namespace Escape

def letter : Escape → Char
  | quote => '"'
  | backslash => '\\'
  | slash => '/'
  | backspace => 'b'
  | formFeed => 'f'
  | lineFeed => 'n'
  | carriageReturn => 'r'
  | tab => 't'

def char : Escape → Char
  | quote => '"'
  | backslash => '\\'
  | slash => '/'
  | backspace => '\x08'
  | formFeed => '\x0c'
  | lineFeed => '\n'
  | carriageReturn => '\r'
  | tab => '\t'

end Escape

/-- A part of a string: a character that stands for itself, an escaped one, or a code unit. -/
inductive Piece
  | plain (c : Char) (fits : c ≠ '"' ∧ c ≠ '\\' ∧ 0x20 ≤ c.toNat)
  | escape (e : Escape)
  | unit (a b c d : HexDigit)

def Piece.text : Piece → List Char
  | plain c _ => [c]
  | escape e => ['\\', e.letter]
  | unit a b c d => ['\\', 'u', a.char, b.char, c.char, d.char]

abbrev Token := List Piece

namespace Token

def text (s : Token) : List Char := s.flatMap Piece.text

def quoted (s : Token) : List Char := '"' :: s.text ++ ['"']

def unitValue (a b c d : HexDigit) : Nat :=
  16 * (16 * (16 * a.value + b.value) + c.value) + d.value

/-- What the string means, if its surrogates are paired. -/
def decode? : Token → Option (List Char)
  | [] => some []
  | .plain c _ :: s => (decode? s).map (c :: ·)
  | .escape e :: s => (decode? s).map (e.char :: ·)
  | .unit a b c d :: s =>
    if isLowSurrogate (unitValue a b c d) then none
    else if isHighSurrogate (unitValue a b c d) then
      match s with
      | .unit a' b' c' d' :: s =>
        if isLowSurrogate (unitValue a' b' c' d') then
          (decode? s).map (joinSurrogates (unitValue a b c d) (unitValue a' b' c' d') :: ·)
        else none
      | _ => none
    else (decode? s).map (Char.ofNat (unitValue a b c d) :: ·)

theorem decode?_low {a b c d : HexDigit} (low : isLowSurrogate (unitValue a b c d) = true)
    (s : Token) : decode? (.unit a b c d :: s) = none := by
  rw [decode?.eq_def]
  exact if_pos low

theorem decode?_unpaired {a b c d : HexDigit} (low : ¬ isLowSurrogate (unitValue a b c d) = true)
    (high : isHighSurrogate (unitValue a b c d) = true) {s : Token}
    (other : ∀ a b c d s', s = .unit a b c d :: s' → False) :
    decode? (.unit a b c d :: s) = none := by
  rw [decode?.eq_def]
  dsimp only
  rw [if_neg low, if_pos high]
  split
  · exact (other _ _ _ _ _ rfl).elim
  · rfl

theorem decode?_single {a b c d : HexDigit} (low : ¬ isLowSurrogate (unitValue a b c d) = true)
    (high : ¬ isHighSurrogate (unitValue a b c d) = true) (s : Token) :
    decode? (.unit a b c d :: s) = (decode? s).map (Char.ofNat (unitValue a b c d) :: ·) := by
  rw [decode?.eq_def]
  dsimp only
  rw [if_neg low, if_neg high]

def string? (s : Token) : Option String := s.decode?.map String.ofList

/-- These characters as themselves, as far as they can stand so. -/
def plain (cs : List Char) : Token :=
  cs.filterMap fun c =>
    if fits : c ≠ '"' ∧ c ≠ '\\' ∧ 0x20 ≤ c.toNat then some (.plain c fits) else none

def unit (n : Nat) : Token :=
  let digit (k : Nat) : HexDigit := ⟨Fin.ofNat 16 k, false⟩
  [.unit (digit (n / 4096)) (digit (n / 256)) (digit (n / 16)) (digit n)]

end Token

/-! Numbers -/

abbrev Digit := Fin 10

def digitChar (d : Digit) : Char := Char.ofNat ('0'.toNat + d)

structure Digits where
  first : Digit
  rest : List Digit

def Digits.text (ds : Digits) : List Char := digitChar ds.first :: ds.rest.map digitChar

/-- Digits without a zero in front, which is only written alone. -/
inductive Whole
  | zero
  | positive (first : Digit) (nonzero : first ≠ 0) (rest : List Digit)

def Whole.text : Whole → List Char
  | zero => ['0']
  | positive first _ rest => digitChar first :: rest.map digitChar

inductive Sign
  | plus
  | minus

def Sign.char : Sign → Char
  | plus => '+'
  | minus => '-'

structure Power where
  upper : Bool
  sign : Option Sign
  digits : Digits

def Power.text (p : Power) : List Char :=
  (if p.upper then 'E' else 'e') :: (p.sign.map Sign.char).toList ++ p.digits.text

structure Number where
  negative : Bool
  whole : Whole
  fraction : Option Digits
  power : Option Power

namespace Number

def fractionText : Option Digits → List Char
  | none => []
  | some ds => '.' :: ds.text

def powerText : Option Power → List Char
  | none => []
  | some p => p.text

def text (n : Number) : List Char :=
  (if n.negative then ['-'] else []) ++ n.whole.text ++ fractionText n.fraction ++ powerText n.power

end Number

/-! Values -/

mutual

inductive Value
  | null
  | boolean (b : Bool)
  | number (n : Number)
  | string (s : Token)
  | emptyArray (gap : Gap)
  | array (items : Items)
  | emptyObject (gap : Gap)
  | object (members : Members)

inductive Items
  | last (before : Gap) (value : Value) (after : Gap)
  | more (before : Gap) (value : Value) (after : Gap) (rest : Items)

inductive Members
  | last (before : Gap) (key : Token) (colon : Gap × Gap) (value : Value) (after : Gap)
  | more (before : Gap) (key : Token) (colon : Gap × Gap) (value : Value) (after : Gap)
    (rest : Members)

end

def keyText (before : Gap) (key : Token) (colon : Gap × Gap) : List Char :=
  before.text ++ key.quoted ++ colon.1.text ++ ':' :: colon.2.text

mutual

def Value.text : Value → List Char
  | .null => ['n', 'u', 'l', 'l']
  | .boolean true => ['t', 'r', 'u', 'e']
  | .boolean false => ['f', 'a', 'l', 's', 'e']
  | .number n => n.text
  | .string s => s.quoted
  | .emptyArray gap => '[' :: gap.text ++ [']']
  | .array items => '[' :: items.text ++ [']']
  | .emptyObject gap => '\x7b' :: gap.text ++ ['\x7d']
  | .object members => '\x7b' :: members.text ++ ['\x7d']
  termination_by structural v => v

def Items.text : Items → List Char
  | .last before value after => before.text ++ value.text ++ after.text
  | .more before value after rest => before.text ++ value.text ++ after.text ++ ',' :: rest.text
  termination_by structural items => items

def Members.text : Members → List Char
  | .last before key colon value after =>
    keyText before key colon ++ value.text ++ after.text
  | .more before key colon value after rest =>
    keyText before key colon ++ value.text ++ after.text ++ ',' :: rest.text
  termination_by structural members => members

end

theorem keyText_append (before : Gap) (key : Token) (colon : Gap × Gap) (rest : List Char) :
    keyText before key colon ++ rest = before.text ++ '"' :: (key.text ++
      '"' :: (colon.1.text ++ ':' :: (colon.2.text ++ rest))) := by
  simp [keyText, Token.quoted]

theorem Items.text_last (before : Gap) (value : Value) (after : Gap) (rest : List Char) :
    (last before value after).text ++ rest =
      before.text ++ (value.text ++ (after.text ++ rest)) := by
  simp [text]

theorem Items.text_more (before : Gap) (value : Value) (after : Gap) (items : Items)
    (rest : List Char) :
    (more before value after items).text ++ rest =
      before.text ++ (value.text ++ (after.text ++ ',' :: (items.text ++ rest))) := by
  simp [text]

theorem Members.text_last (before : Gap) (key : Token) (colon : Gap × Gap) (value : Value)
    (after : Gap) (rest : List Char) :
    (last before key colon value after).text ++ rest =
      keyText before key colon ++ (value.text ++ (after.text ++ rest)) := by
  simp [text]

theorem Members.text_more (before : Gap) (key : Token) (colon : Gap × Gap) (value : Value)
    (after : Gap) (members : Members) (rest : List Char) :
    (more before key colon value after members).text ++ rest =
      keyText before key colon ++
        (value.text ++ (after.text ++ ',' :: (members.text ++ rest))) := by
  simp [text]

def Items.values : Items → List Value
  | last _ value _ => [value]
  | more _ value _ rest => value :: rest.values

def Members.pairs? : Members → Option (List (String × Value))
  | last _ key _ value _ => key.string?.map fun name => [(name, value)]
  | more _ key _ value _ rest =>
    key.string?.bind fun name => rest.pairs?.map ((name, value) :: ·)

namespace Value

def pairs? : Value → Option (List (String × Value))
  | emptyObject _ => some []
  | object members => members.pairs?
  | _ => none

def items? : Value → Option (List Value)
  | emptyArray _ => some []
  | array items => some items.values
  | _ => none

end Value

mutual

def Value.bare : Value → Value
  | .emptyArray _ => .emptyArray []
  | .array items => .array items.bare
  | .emptyObject _ => .emptyObject []
  | .object members => .object members.bare
  | v => v
  termination_by structural v => v

def Items.bare : Items → Items
  | .last _ value _ => .last [] value.bare []
  | .more _ value _ rest => .more [] value.bare [] rest.bare
  termination_by structural items => items

def Members.bare : Members → Members
  | .last _ key _ value _ => .last [] key ([], []) value.bare []
  | .more _ key _ value _ rest => .more [] key ([], []) value.bare [] rest.bare
  termination_by structural members => members

end

/-- One value with white space around it. -/
structure Document where
  before : Gap
  value : Value
  after : Gap

def Document.text (d : Document) : String :=
  String.ofList (d.before.text ++ d.value.text ++ d.after.text)

end GuestHost.Json
