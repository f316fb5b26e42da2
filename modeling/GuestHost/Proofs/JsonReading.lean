import GuestHost.Config.Reader
import GuestHost.Proofs.JsonSyntax

/-!
How the reader of configurations takes in the parts of a JSON text: white space, strings and
numbers, and whole values that it passes over.
-/

namespace GuestHost.Json

/-! Numbers, one character at a time -/

namespace Numeral

def feed? (n : Numeral) : List Char → Option Numeral
  | [] => some n
  | c :: cs => match n.step c with
    | .more n => n.feed? cs
    | _ => none

theorem feed?_append (n : Numeral) (cs ds : List Char) :
    n.feed? (cs ++ ds) = (n.feed? cs).bind (·.feed? ds) := by
  induction cs generalizing n with
  | nil => rfl
  | cons c cs ih =>
    rw [List.cons_append, feed?, feed?]
    split
    · exact ih _
    · rfl

theorem digit?_digitChar (d : Digit) : digit? (digitChar d) = some d.val := by
  revert d
  decide

/-- In these modes a digit changes nothing about what may come next. -/
def Runs (n : Numeral) : Prop := n.mode = .whole ∨ n.mode = .fraction ∨ n.mode = .power

theorem step_digit {n : Numeral} (runs : n.Runs) (d : Digit) :
    ∃ n', n.step (digitChar d) = .more n' ∧ n'.mode = n.mode := by
  unfold step
  rcases runs with mode | mode | mode <;>
  · simp [mode, digit?_digitChar]

theorem feed?_digits {n : Numeral} (runs : n.Runs) (ds : List Digit) :
    ∃ n', n.feed? (ds.map digitChar) = some n' ∧ n'.mode = n.mode := by
  induction ds generalizing n with
  | nil => exact ⟨n, rfl, rfl⟩
  | cons d ds ih =>
    obtain ⟨n₁, stepped, same⟩ := step_digit runs d
    obtain ⟨n₂, fed, same'⟩ := ih (n := n₁) (by unfold Runs at *; rwa [same])
    refine ⟨n₂, ?_, same'.trans same⟩
    simpa [feed?, stepped] using fed

def HasWhole (n : Numeral) : Prop := n.mode = .zero ∨ n.mode = .whole

theorem feed?_whole {n : Numeral} (signed : n.mode = .sign) (w : Whole) :
    ∃ n', n.feed? w.text = some n' ∧ n'.HasWhole := by
  cases w with
  | zero =>
    refine ⟨{ n with whole := [0], mode := .zero }, ?_, .inl rfl⟩
    have zero : digit? '0' = some 0 := by decide
    simp only [Whole.text, feed?, step, signed, zero]
    rfl
  | positive first nonzero rest =>
    have nonzero : first.val ≠ 0 := fun same => nonzero (Fin.ext same)
    obtain ⟨n', fed, same⟩ := feed?_digits
      (n := { n with whole := [first.val], mode := .whole }) (.inl rfl) rest
    refine ⟨n', ?_, .inr same⟩
    simpa only [Whole.text, feed?, step, signed, digit?_digitChar, nonzero, if_false] using fed

def starts : List Char := ['-', '0', '1', '2', '3', '4', '5', '6', '7', '8', '9']

theorem digitChar_mem_starts (d : Digit) : digitChar d ∈ starts := by
  revert d
  decide

theorem start_whole (w : Whole) :
    ∃ c cs n₀ n, w.text = c :: cs ∧ c ∈ starts ∧ start? c = some n₀ ∧ n₀.feed? cs = some n ∧
      n.HasWhole := by
  cases w with
  | zero => exact ⟨'0', [], _, _, rfl, by decide, rfl, rfl, .inl rfl⟩
  | positive first nonzero rest =>
    have nonzero : first.val ≠ 0 := fun same => nonzero (Fin.ext same)
    have started : start? (digitChar first) = some { whole := [first.val], mode := .whole } := by
      have unsigned : digitChar first ≠ '-' := by
        revert first
        decide
      simp [start?, unsigned, digit?_digitChar, nonzero]
    obtain ⟨n', fed, same⟩ := feed?_digits
      (n := { whole := [first.val], mode := .whole }) (.inl rfl) rest
    exact ⟨_, _, _, n', rfl, digitChar_mem_starts first, started, fed, .inr same⟩

theorem feed?_fraction {n : Numeral} (whole : n.HasWhole) (f : Option Digits) :
    ∃ n', n.feed? (Number.fractionText f) = some n' ∧ (n'.HasWhole ∨ n'.mode = .fraction) := by
  cases f with
  | none => exact ⟨n, rfl, .inl whole⟩
  | some ds =>
    obtain ⟨n', fed, same⟩ := feed?_digits
      (n := { n with fraction := ds.first.val :: n.fraction, mode := .fraction })
      (.inr (.inl rfl)) ds.rest
    refine ⟨n', ?_, .inr same⟩
    have point : digit? '.' = none := by decide
    have pointed : n.step '.' = .more { n with mode := .point } := by
      unfold step
      rcases whole with mode | mode <;> simp [mode, point]
    simp only [Number.fractionText, Digits.text, feed?, pointed]
    simpa only [step, digit?_digitChar] using fed

theorem feed?_powerDigits {n : Numeral} (marked : n.mode = .mark ∨ n.mode = .markSign)
    (ds : Digits) : ∃ n', n.feed? ds.text = some n' ∧ n'.isComplete = true := by
  obtain ⟨n', fed, same⟩ := feed?_digits
    (n := { n with power := ds.first.val :: n.power, mode := .power }) (.inr (.inr rfl)) ds.rest
  refine ⟨n', ?_, ?_⟩
  · have stepped : n.step (digitChar ds.first) =
        .more { n with power := ds.first.val :: n.power, mode := .power } := by
      unfold step
      rcases marked with mode | mode <;> simp [mode, digit?_digitChar]
    simpa only [Digits.text, feed?, stepped] using fed
  · rw [isComplete, same]

theorem step_mark {n : Numeral} (before : n.HasWhole ∨ n.mode = .fraction) (upper : Bool) :
    n.step (if upper then 'E' else 'e') = .more { n with mode := .mark } := by
  have marks : digit? 'E' = none ∧ digit? 'e' = none := by decide
  unfold step
  rcases before with (mode | mode) | mode <;> cases upper <;> simp [mode, marks]

theorem feed?_power {n : Numeral} (before : n.HasWhole ∨ n.mode = .fraction) (p : Option Power) :
    ∃ n', n.feed? (Number.powerText p) = some n' ∧ n'.isComplete = true := by
  cases p with
  | none =>
    refine ⟨n, rfl, ?_⟩
    unfold isComplete
    rcases before with (mode | mode) | mode <;> rw [mode]
  | some p =>
    obtain ⟨upper, sign, digits⟩ := p
    cases sign with
    | none =>
      obtain ⟨n', fed, complete⟩ :=
        feed?_powerDigits (n := { n with mode := .mark }) (.inl rfl) digits
      refine ⟨n', ?_, complete⟩
      simpa [Number.powerText, Power.text, feed?, step_mark before] using fed
    | some sign =>
      obtain ⟨n', fed, complete⟩ := feed?_powerDigits
        (n := { n with powerNegative := sign.char = '-', mode := .markSign }) (.inr rfl) digits
      refine ⟨n', ?_, complete⟩
      have signed : Numeral.step { n with mode := .mark } sign.char =
          .more { n with powerNegative := sign.char = '-', mode := .markSign } := by
        cases sign <;> rfl
      simpa [Number.powerText, Power.text, feed?, step_mark before, signed] using fed

theorem start_number (number : Number) :
    ∃ c cs n₀ n, number.text = c :: cs ∧ c ∈ starts ∧ start? c = some n₀ ∧ n₀.feed? cs = some n ∧
      n.isComplete = true := by
  obtain ⟨negative, whole, fraction, power⟩ := number
  obtain ⟨c, cs, n₀, n₁, text, begins, started, fed, hasWhole⟩ : ∃ c cs n₀ n,
      (if negative then ['-'] else []) ++ whole.text = c :: cs ∧ c ∈ starts ∧ start? c = some n₀ ∧
        n₀.feed? cs = some n ∧ n.HasWhole := by
    cases negative with
    | false => exact start_whole whole
    | true =>
      obtain ⟨n, fed, hasWhole⟩ := feed?_whole (n := { negative := true, mode := .sign }) rfl whole
      exact ⟨'-', _, _, n, rfl, by decide, rfl, fed, hasWhole⟩
  obtain ⟨n₂, fed₂, before⟩ := feed?_fraction hasWhole fraction
  obtain ⟨n₃, fed₃, complete⟩ := feed?_power before power
  refine ⟨c, cs ++ (Number.fractionText fraction ++ Number.powerText power), n₀, n₃, ?_, begins,
    started, ?_, complete⟩
  · simp [Number.text, text]
  · rw [feed?_append, fed, Option.bind_some, feed?_append, fed₂, Option.bind_some, fed₃]

end Numeral

theorem forall_of_all {p : Char → Prop} [DecidablePred p] {cs : List Char}
    (all : cs.all (fun c => decide (p c)) = true) : ∀ c ∈ cs, p c :=
  fun c member => of_decide_eq_true (List.all_eq_true.mp all c member)

def delimiters : List Char := [' ', '\t', '\n', '\r', ',', ']', '\x7d']

theorem Blank.char_mem_delimiters (b : Blank) : b.char ∈ delimiters := by
  cases b <;> decide

theorem Numeral.step_delimiter {n : Numeral} (complete : n.isComplete = true) {c : Char}
    (delimits : c ∈ delimiters) : n.step c = .done () := by
  have other : ∀ c ∈ delimiters, digit? c = none ∧ c ≠ '.' ∧ c ≠ 'e' ∧ c ≠ 'E' :=
    forall_of_all rfl
  obtain ⟨noDigit, noPoint, noMark, noMark'⟩ := other c delimits
  unfold isComplete at complete
  unfold step
  split at complete <;> simp_all

/-! Strings, one character at a time -/

namespace Quoted

def read (q : Quoted) : List Char → Progress Quoted (String × List Char)
  | [] => .more q
  | c :: cs => match q.step c with
    | .more q => q.read cs
    | .done text => .done (text, cs)
    | .malformed => .malformed

theorem hexValue?_char (d : HexDigit) : hexValue? d.char = some d.value.val := by
  obtain ⟨value, upper⟩ := d
  revert value upper
  decide

theorem utf8Size_char (d : HexDigit) : d.char.utf8Size = 1 := by
  obtain ⟨value, upper⟩ := d
  revert value upper
  decide

theorem hexNumber?_unit (a b c d : HexDigit) :
    hexNumber? [a.char, b.char, c.char, d.char] = some (Token.unitValue a b c d) := by
  simp [hexNumber?, hexValue?_char, Token.unitValue]

theorem read_closing {q : Quoted} (plain : q.mode = .plain) (rest : List Char) :
    q.read ('"' :: rest) = .done (q.text, rest) := by
  simp [read, step, plain]

theorem read_plain {q : Quoted} (plain : q.mode = .plain) {c : Char}
    (fits : c ≠ '"' ∧ c ≠ '\\' ∧ 0x20 ≤ c.toNat) (rest : List Char) :
    q.read (c :: rest) = (q.take c).read rest := by
  have printing : ¬ c.toNat < 0x20 := Nat.not_lt.mpr fits.2.2
  simp [read, step, plain, fits.1, fits.2.1, printing]

theorem read_escape {q : Quoted} (plain : q.mode = .plain) (e : Escape) (rest : List Char) :
    q.read ('\\' :: e.letter :: rest) = (q.take e.char).read rest := by
  have escaped : q.step '\\' = .more (q.goto .escape) := by simp [step, plain]
  have letter : (q.goto .escape).step e.letter = .more (q.take e.char) := by
    cases e <;> rfl
  simp only [read, escaped, letter]

theorem read_hex (q : Quoted) (a b c d : HexDigit) (rest : List Char) :
    (q.goto (.hex [])).read (a.char :: b.char :: c.char :: d.char :: rest) =
      match q.takeUnit (Token.unitValue a b c d) with
      | .more q => q.read rest
      | .done text => .done (text, rest)
      | .malformed => .malformed := by
  simp [read, step, goto, hexFull, utf8Size_char, hexNumber?_unit, takeUnit, take]

theorem read_unit {q : Quoted} (plain : q.mode = .plain) (a b c d : HexDigit) (rest : List Char) :
    q.read ('\\' :: 'u' :: a.char :: b.char :: c.char :: d.char :: rest) =
      match q.takeUnit (Token.unitValue a b c d) with
      | .more q => q.read rest
      | .done text => .done (text, rest)
      | .malformed => .malformed := by
  have escaped : q.step '\\' = .more (q.goto .escape) := by simp [step, plain]
  have letter : (q.goto .escape).step 'u' = .more (q.goto (.hex [])) := rfl
  rw [read, escaped]
  dsimp only
  rw [read, letter]
  exact read_hex q a b c d rest

theorem takeUnit_high {q : Quoted} (strict : q.strict = true) {n : Nat}
    (noLow : ¬ isLowSurrogate n = true) (high : isHighSurrogate n = true) :
    q.takeUnit n = .more (q.goto (.pairSlash n)) := by
  simp [takeUnit, strict, noLow, high]

theorem read_low (q : Quoted) (high : Nat) (a b c d : HexDigit) (rest : List Char) :
    (q.goto (.pairSlash high)).read
        ('\\' :: 'u' :: a.char :: b.char :: c.char :: d.char :: rest) =
      if isLowSurrogate (Token.unitValue a b c d) then
        (q.take (joinSurrogates high (Token.unitValue a b c d))).read rest
      else .malformed := by
  by_cases low : isLowSurrogate (Token.unitValue a b c d) = true <;>
  simp [read, step, goto, hexFull, utf8Size_char, hexNumber?_unit, take, low]

theorem read_unpaired (q : Quoted) (high : Nat) {s : Token}
    (other : ∀ a b c d s', s = .unit a b c d :: s' → False) (rest : List Char) :
    (q.goto (.pairSlash high)).read (s.text ++ '"' :: rest) = .malformed := by
  match s, other with
  | [], _ => rfl
  | .plain c fits :: s, _ =>
    have noSlash : (q.goto (.pairSlash high)).step c = .malformed := by simp [step, goto, fits.2.1]
    change (q.goto (.pairSlash high)).read (c :: (Token.text s ++ '"' :: rest)) = _
    rw [read, noSlash]
  | .escape e :: s, _ =>
    change (q.goto (.pairSlash high)).read ('\\' :: e.letter :: (Token.text s ++ '"' :: rest)) = _
    cases e <;> rfl
  | .unit a b c d :: s, other => exact absurd rfl (other a b c d s)

theorem text_cons (piece : Piece) (s : Token) (rest : List Char) :
    Token.text (piece :: s) ++ rest = piece.text ++ (s.text ++ rest) := by
  simp [Token.text]

/-- A strict reader takes what a string means, or finds a surrogate without its partner. -/
theorem read_strict {q : Quoted} (strict : q.strict = true) (plain : q.mode = .plain) (s : Token)
    (rest : List Char) :
    q.read (s.text ++ '"' :: rest) = match s.decode? with
      | some cs => .done (String.ofList (q.taken.reverse ++ cs), rest)
      | none => .malformed := by
  -- The cases are those of the decoder: it looks at two code units at once where the first is the
  -- first half of a pair.
  induction s using Token.decode?.induct generalizing q with
  | case1 =>
    refine (read_closing plain rest).trans ?_
    simp [Token.decode?, text]
  | case2 c fits s ih =>
    rw [text_cons]
    refine (read_plain plain fits (Token.text s ++ '"' :: rest)).trans ?_
    rw [ih (q := q.take c) strict rfl, Token.decode?]
    cases Token.decode? s <;> simp [take]
  | case3 e s ih =>
    rw [text_cons]
    refine (read_escape plain e (Token.text s ++ '"' :: rest)).trans ?_
    rw [ih (q := q.take e.char) strict rfl, Token.decode?]
    cases Token.decode? s <;> simp [take]
  | case4 a b c d s low =>
    rw [text_cons]
    refine (read_unit plain a b c d (Token.text s ++ '"' :: rest)).trans ?_
    have refused : q.takeUnit (Token.unitValue a b c d) = .malformed := by
      simp [takeUnit, strict, low]
    rw [refused, Token.decode?_low low]
  | case5 a b c d noLow high a' b' c' d' s low ih =>
    rw [text_cons, text_cons]
    refine (read_unit plain a b c d _).trans ?_
    have half := takeUnit_high strict noLow high
    have decoded : Token.decode? (.unit a b c d :: .unit a' b' c' d' :: s) =
        (Token.decode? s).map
          (joinSurrogates (Token.unitValue a b c d) (Token.unitValue a' b' c' d') :: ·) := by
      simp [Token.decode?, noLow, high, low]
    rw [half, decoded]
    refine (read_low q _ a' b' c' d' (Token.text s ++ '"' :: rest)).trans ?_
    rw [if_pos low, ih (q := q.take _) strict rfl]
    cases Token.decode? s <;> simp [take]
  | case6 a b c d noLow high a' b' c' d' s noLow' =>
    rw [text_cons, text_cons]
    refine (read_unit plain a b c d _).trans ?_
    have half := takeUnit_high strict noLow high
    have undefined : Token.decode? (.unit a b c d :: .unit a' b' c' d' :: s) = none := by
      simp [Token.decode?, noLow, high, noLow']
    rw [half, undefined]
    refine (read_low q _ a' b' c' d' (Token.text s ++ '"' :: rest)).trans ?_
    rw [if_neg noLow']
  | case7 a b c d s noLow high other =>
    rw [text_cons]
    refine (read_unit plain a b c d (Token.text s ++ '"' :: rest)).trans ?_
    have half := takeUnit_high strict noLow high
    rw [half, Token.decode?_unpaired noLow high other]
    exact read_unpaired q _ other rest
  | case8 a b c d s noLow noHigh ih =>
    rw [text_cons]
    refine (read_unit plain a b c d (Token.text s ++ '"' :: rest)).trans ?_
    have taken : q.takeUnit (Token.unitValue a b c d) =
        .more (q.take (Char.ofNat (Token.unitValue a b c d))) := by
      simp [takeUnit, strict, noLow, noHigh]
    rw [taken, Token.decode?_single noLow noHigh]
    refine (ih (q := q.take _) strict rfl).trans ?_
    cases Token.decode? s <;> simp [take]

theorem read_loose {q : Quoted} (loose : q.strict = false) (plain : q.mode = .plain) (s : Token)
    (rest : List Char) : ∃ text, q.read (s.text ++ '"' :: rest) = .done (text, rest) := by
  induction s generalizing q with
  | nil => exact ⟨_, read_closing plain rest⟩
  | cons piece s ih =>
    rw [Token.text, List.flatMap_cons, List.append_assoc]
    cases piece with
    | plain c fits =>
      obtain ⟨text, done⟩ := ih (q := q.take c) loose rfl
      exact ⟨text, (read_plain plain fits _).trans done⟩
    | escape e =>
      obtain ⟨text, done⟩ := ih (q := q.take e.char) loose rfl
      exact ⟨text, (read_escape plain e _).trans done⟩
    | unit a b c d =>
      obtain ⟨text, done⟩ := ih (q := q.goto .plain) loose rfl
      refine ⟨text, (read_unit plain a b c d _).trans ?_⟩
      rw [takeUnit, loose]
      exact done

end Quoted

def Value.starts : Value → List Char
  | null => ['n']
  | boolean _ => ['t', 'f']
  | number _ => Numeral.starts
  | string _ => ['"']
  | emptyArray _ | array _ => ['[']
  | emptyObject _ | object _ => ['\x7b']

theorem Value.exists_text_eq_cons (v : Value) : ∃ c cs, v.text = c :: cs ∧ c ∈ v.starts := by
  cases v with
  | number n =>
    obtain ⟨c, cs, _, _, text, begins, _⟩ := Numeral.start_number n
    exact ⟨c, cs, text, begins⟩
  | boolean b => cases b <;> exact ⟨_, _, rfl, by decide⟩
  | _ => exact ⟨_, _, rfl, List.mem_singleton.mpr rfl⟩

end GuestHost.Json
