import GuestHost.Proofs.JsonReading

/-!
How the reader of configurations goes through well-formed texts: white space and strings, and the
values of unknown keys, which it passes over whatever they are.
-/

namespace GuestHost.Config

open Json

def Reader.run (r : Reader) (cs : List Char) : Except ParseError Reader := cs.foldlM Reader.step r

namespace Reader

@[simp] theorem run_nil (r : Reader) : r.run [] = .ok r := rfl

@[simp] theorem run_cons (r : Reader) (c : Char) (cs : List Char) :
    r.run (c :: cs) = (r.step c).bind (·.run cs) := rfl

theorem run_append (r : Reader) (cs ds : List Char) :
    r.run (cs ++ ds) = (r.run cs).bind (·.run ds) := by
  rw [run, List.foldlM_append]
  rfl

theorem run_append_of_ok {r r' : Reader} {cs : List Char} (first : r.run cs = .ok r')
    (ds : List Char) : r.run (cs ++ ds) = r'.run ds := by
  rw [run_append, first]
  rfl

theorem run_gap {r : Reader} (rests : ∀ b : Blank, r.step b.char = .ok r) (g : Gap) :
    r.run g.text = .ok r := by
  induction g with
  | nil => rfl
  | cons b g ih =>
    rw [Gap.text, List.map_cons, run_cons, rests b]
    exact ih

theorem run_gap_append {r : Reader} (rests : ∀ b : Blank, r.step b.char = .ok r) (g : Gap)
    (cs : List Char) : r.run (g.text ++ cs) = r.run cs :=
  run_append_of_ok (run_gap rests g) cs

/-! Strings -/

theorem run_quoted {place : Quoted → Reader} {complete : String → Except ParseError Reader}
    (steps : ∀ q c, (place q).step c = stepQuoted q c place complete) (q : Quoted)
    (cs : List Char) :
    (place q).run cs = match q.read cs with
      | .more q => .ok (place q)
      | .done (text, rest) => (complete text).bind (·.run rest)
      | .malformed => .error .malformed := by
  induction cs generalizing q with
  | nil => rfl
  | cons c cs ih =>
    rw [run_cons, steps, stepQuoted, Quoted.read]
    cases q.step c with
    | more q => exact ih q
    | done text => rfl
    | malformed => rfl

theorem run_strict (place : Quoted → Reader) (complete : String → Except ParseError Reader)
    (steps : ∀ q c, (place q).step c = stepQuoted q c place complete) (s : Token)
    (rest : List Char) :
    (place { strict := true }).run (s.text ++ '"' :: rest) = match s.string? with
      | some text => (complete text).bind (·.run rest)
      | none => .error .malformed := by
  rw [run_quoted steps, Quoted.read_strict rfl rfl, Token.string?]
  cases s.decode? <;> rfl

theorem run_loose {place : Quoted → Reader} {next : Except ParseError Reader}
    (steps : ∀ q c, (place q).step c = stepQuoted q c place fun _ => next) (s : Token)
    (rest : List Char) :
    (place { strict := false }).run (s.text ++ '"' :: rest) = next.bind (·.run rest) := by
  rw [run_quoted steps]
  obtain ⟨text, done⟩ := Quoted.read_loose (q := { strict := false }) rfl rfl s rest
  rw [done]

/-! Values that are passed over -/

def behind : List Bracket → Phase
  | [] => .after
  | b :: bs => .skip ⟨b :: bs, .after⟩

variable (d : Draft) (shape : Shape)

theorem step_skip_number {bs : List Bracket} {n n' : Numeral} {c : Char}
    (more : n.step c = .more n') :
    step ⟨d, shape, .skip ⟨bs, .number n⟩⟩ c = .ok ⟨d, shape, .skip ⟨bs, .number n'⟩⟩ := by
  simp [step, Skip.step, more, goto]

theorem run_skip_number {bs : List Bracket} {n n' : Numeral} {cs : List Char}
    (fed : n.feed? cs = some n') :
    run ⟨d, shape, .skip ⟨bs, .number n⟩⟩ cs = .ok ⟨d, shape, .skip ⟨bs, .number n'⟩⟩ := by
  induction cs generalizing n with
  | nil =>
    cases fed
    rfl
  | cons c cs ih =>
    rw [Numeral.feed?] at fed
    split at fed
    · rename_i n₁ more
      rw [run_cons, step_skip_number d shape more]
      exact ih fed
    · cases fed

def conclude : Progress Skip Unit → Except ParseError Reader
  | .more s => .ok ⟨d, shape, .skip s⟩
  | .done () => .ok ⟨d, shape, .after⟩
  | .malformed => .error .malformed

theorem step_skip {s : Skip} {c : Char} {p : Progress Skip Unit}
    (stays : s.step c = match p with
      | .more s => .more s
      | .done () => .done true
      | .malformed => .malformed) :
    step ⟨d, shape, .skip s⟩ c = conclude d shape p := by
  rw [step]
  dsimp only
  rw [stays]
  cases p <;> rfl

theorem step_skip_value (bs : List Bracket) (c : Char) :
    step ⟨d, shape, .skip ⟨bs, .value⟩⟩ c = conclude d shape (Skip.stepValue bs .value c) :=
  step_skip d shape rfl

theorem step_skip_after (bs : List Bracket) (c : Char) :
    step ⟨d, shape, .skip ⟨bs, .after⟩⟩ c = conclude d shape (Skip.stepAfter bs c) :=
  step_skip d shape rfl

/-- A value has ended inside these brackets, or it is a number that may still go on. -/
inductive Passed (bs : List Bracket) : Phase → Prop
  | ended : Passed bs (behind bs)
  | number {n : Numeral} (complete : n.isComplete = true) : Passed bs (.skip ⟨bs, .number n⟩)

/-- Before a delimiter it makes no difference which. -/
theorem Passed.step_eq {bs : List Bracket} {phase : Phase} (passed : Passed bs phase) {c : Char}
    (delimits : c ∈ delimiters) :
    step ⟨d, shape, phase⟩ c = step ⟨d, shape, behind bs⟩ c := by
  cases passed with
  | ended => rfl
  | number complete =>
    have ended := Numeral.step_delimiter complete delimits
    cases bs with
    | nil => simp [step, Skip.step, ended, behind, stepAfter, goto]
    | cons b bs =>
      rw [behind, step_skip_after]
      apply step_skip
      simp only [Skip.step, ended]
      rfl

theorem Passed.run_eq {bs : List Bracket} {phase : Phase} (passed : Passed bs phase) {c : Char}
    (delimits : c ∈ delimiters) (g : Gap) (cs : List Char) :
    run ⟨d, shape, phase⟩ (g.text ++ c :: cs) = run ⟨d, shape, behind bs⟩ (g.text ++ c :: cs) := by
  cases g with
  | nil =>
    rw [Gap.text, List.map_nil, List.nil_append, run_cons, run_cons,
      passed.step_eq d shape delimits]
  | cons b g =>
    rw [Gap.text, List.map_cons, List.cons_append, run_cons, run_cons,
      passed.step_eq d shape b.char_mem_delimiters]

theorem step_behind_blank (bs : List Bracket) (b : Blank) :
    step ⟨d, shape, behind bs⟩ b.char = .ok ⟨d, shape, behind bs⟩ := by
  cases bs <;> cases b <;> rfl

theorem run_behind (bs : List Bracket) (g : Gap) (cs : List Char) :
    run ⟨d, shape, behind bs⟩ (g.text ++ cs) = run ⟨d, shape, behind bs⟩ cs :=
  run_gap_append (step_behind_blank d shape bs) g cs

/-- The modes in which white space may stand before the next part of the value. -/
def Waits (mode : SkipMode) : Prop :=
  mode = .value ∨ mode = .opened ∨ mode = .key ∨ mode = .colon

theorem run_waiting {mode : SkipMode} (waits : Waits mode) (bs : List Bracket) (g : Gap)
    (cs : List Char) :
    run ⟨d, shape, .skip ⟨bs, mode⟩⟩ (g.text ++ cs) = run ⟨d, shape, .skip ⟨bs, mode⟩⟩ cs := by
  apply run_gap_append
  intro b
  rcases waits with rfl | rfl | rfl | rfl
  · cases b <;> rfl
  · rcases bs with _ | ⟨_ | _, bs⟩ <;> cases b <;> rfl
  · cases b <;> rfl
  · cases b <;> rfl

theorem starts_other (v : Value) : ∀ c ∈ v.starts, isBlank c = false ∧ c ≠ ']' := by
  cases v <;> exact forall_of_all rfl

theorem run_opened_items (bs : List Bracket) (items : Items) (rest : List Char) :
    run ⟨d, shape, .skip ⟨.array :: bs, .opened⟩⟩ (items.text ++ rest) =
      run ⟨d, shape, .skip ⟨.array :: bs, .value⟩⟩ (items.text ++ rest) := by
  obtain ⟨g, v, cs, text⟩ : ∃ (g : Gap) (v : Value) (cs : List Char),
      items.text ++ rest = g.text ++ (v.text ++ cs) := by
    cases items with
    | last before v after => exact ⟨before, v, _, Items.text_last ..⟩
    | more before v after items => exact ⟨before, v, _, Items.text_more ..⟩
  obtain ⟨c, cs', head, begins⟩ := v.exists_text_eq_cons
  obtain ⟨noBlank, noBracket⟩ := starts_other v c begins
  rw [text, run_waiting d shape (.inr (.inl rfl)), run_waiting d shape (.inl rfl), head,
    List.cons_append, run_cons, run_cons, step_skip_value]
  have same : step ⟨d, shape, .skip ⟨.array :: bs, .opened⟩⟩ c =
      conclude d shape (Skip.stepValue (.array :: bs) .opened c) := by
    apply step_skip
    rw [Skip.step.eq_def]
    dsimp only
    split
    · exact absurd rfl noBracket
    · rename_i other
      cases other
    · rename_i other _
      cases other
    · rfl
  rw [same]
  simp [Skip.stepValue, noBlank]

theorem run_opened_members (bs : List Bracket) (members : Members) (rest : List Char) :
    run ⟨d, shape, .skip ⟨.object :: bs, .opened⟩⟩ (members.text ++ rest) =
      run ⟨d, shape, .skip ⟨.object :: bs, .key⟩⟩ (members.text ++ rest) := by
  obtain ⟨g, cs, text⟩ : ∃ (g : Gap) (cs : List Char),
      members.text ++ rest = g.text ++ '"' :: cs := by
    cases members with
    | last before key colon v after =>
      exact ⟨before, _, (Members.text_last ..).trans (keyText_append ..)⟩
    | more before key colon v after members =>
      exact ⟨before, _, (Members.text_more ..).trans (keyText_append ..)⟩
  rw [text, run_waiting d shape (.inr (.inl rfl)), run_waiting d shape (.inr (.inr (.inl rfl)))]
  rfl

theorem run_skip_key (bs : List Bracket) (before : Gap) (key : Token) (colon : Gap × Gap)
    (rest : List Char) :
    run ⟨d, shape, .skip ⟨bs, .key⟩⟩ (keyText before key colon ++ rest) =
      run ⟨d, shape, .skip ⟨bs, .value⟩⟩ rest := by
  have steps (q : Quoted) (c : Char) :
      step ⟨d, shape, .skip ⟨bs, .quoted q true⟩⟩ c =
        stepQuoted q c (fun q => ⟨d, shape, .skip ⟨bs, .quoted q true⟩⟩)
          fun _ => .ok ⟨d, shape, .skip ⟨bs, .colon⟩⟩ := by
    simp only [step, Skip.step, stepQuoted]
    cases q.step c <;> rfl
  rw [keyText_append, run_waiting d shape (.inr (.inr (.inl rfl)))]
  refine (run_loose steps key _).trans ?_
  change run ⟨d, shape, .skip ⟨bs, .colon⟩⟩ _ = _
  rw [run_waiting d shape (.inr (.inr (.inr rfl)))]
  change run ⟨d, shape, .skip ⟨bs, .value⟩⟩ _ = _
  rw [run_waiting d shape (.inl rfl)]

theorem run_skip_string (bs : List Bracket) (s : Token) (rest : List Char) :
    run ⟨d, shape, .skip ⟨bs, .value⟩⟩ (s.quoted ++ rest) = run ⟨d, shape, behind bs⟩ rest := by
  have steps (q : Quoted) (c : Char) :
      step ⟨d, shape, .skip ⟨bs, .quoted q false⟩⟩ c =
        stepQuoted q c (fun q => ⟨d, shape, .skip ⟨bs, .quoted q false⟩⟩)
          fun _ => .ok ⟨d, shape, behind bs⟩ := by
    simp only [step, Skip.step, stepQuoted]
    cases q.step c with
    | done text => cases bs <;> rfl
    | _ => rfl
  have text : s.quoted ++ rest = '"' :: (s.text ++ '"' :: rest) := by simp [Token.quoted]
  rw [text]
  exact run_loose steps s rest

theorem run_skip_word (bs : List Bracket) {v : Value}
    (word : v = .null ∨ ∃ b, v = .boolean b) :
    run ⟨d, shape, .skip ⟨bs, .value⟩⟩ v.text = .ok ⟨d, shape, behind bs⟩ := by
  rcases word with rfl | ⟨_ | _, rfl⟩ <;> cases bs <;> rfl

theorem run_skip_numeral (bs : List Bracket) (number : Number) :
    ∃ phase, Passed bs phase ∧
      run ⟨d, shape, .skip ⟨bs, .value⟩⟩ number.text = .ok ⟨d, shape, phase⟩ := by
  obtain ⟨c, cs, n₀, n, text, begins, started, fed, complete⟩ := Numeral.start_number number
  have other : ∀ c ∈ Numeral.starts, isBlank c = false ∧ c ≠ '"' ∧ c ≠ '[' ∧ c ≠ '\x7b' ∧
      wordRest? c = none := forall_of_all rfl
  obtain ⟨noBlank, noQuote, noArray, noObject, noWord⟩ := other c begins
  refine ⟨_, .number complete, ?_⟩
  rw [text, run_cons, step_skip_value]
  simp only [Skip.stepValue, noBlank, noQuote, noArray, noObject, noWord, started, conclude]
  exact run_skip_number d shape fed

theorem run_delimited {bs : List Bracket} {v : Value}
    (passed : ∃ phase, Passed bs phase ∧
      run ⟨d, shape, .skip ⟨bs, .value⟩⟩ v.text = .ok ⟨d, shape, phase⟩)
    (after : Gap) {c : Char} (delimits : c ∈ delimiters) (rest : List Char) :
    run ⟨d, shape, .skip ⟨bs, .value⟩⟩ (v.text ++ (after.text ++ c :: rest)) =
      run ⟨d, shape, behind bs⟩ (c :: rest) := by
  obtain ⟨phase, passed, read⟩ := passed
  rw [run_append_of_ok read, passed.run_eq d shape delimits, run_behind]

theorem run_close_array (bs : List Bracket) (rest : List Char) :
    run ⟨d, shape, behind (.array :: bs)⟩ (']' :: rest) = run ⟨d, shape, behind bs⟩ rest := by
  cases bs <;> rfl

theorem run_close_object (bs : List Bracket) (rest : List Char) :
    run ⟨d, shape, behind (.object :: bs)⟩ ('\x7d' :: rest) = run ⟨d, shape, behind bs⟩ rest := by
  cases bs <;> rfl

mutual

/-- Any value is passed over, however deep. -/
theorem run_skip_value (v : Value) (bs : List Bracket) :
    ∃ phase, Passed bs phase ∧
      run ⟨d, shape, .skip ⟨bs, .value⟩⟩ v.text = .ok ⟨d, shape, phase⟩ := by
  match v with
  | .null => exact ⟨_, .ended, run_skip_word d shape bs (.inl rfl)⟩
  | .boolean b => exact ⟨_, .ended, run_skip_word d shape bs (.inr ⟨b, rfl⟩)⟩
  | .number n => exact run_skip_numeral d shape bs n
  | .string s =>
    have passed := run_skip_string d shape bs s []
    rw [List.append_nil] at passed
    exact ⟨_, .ended, passed⟩
  | .emptyArray gap =>
    refine ⟨_, .ended, ?_⟩
    change run ⟨d, shape, .skip ⟨.array :: bs, .opened⟩⟩ (gap.text ++ [']']) = _
    rw [run_waiting d shape (.inr (.inl rfl))]
    cases bs <;> rfl
  | .array items =>
    refine ⟨_, .ended, ?_⟩
    change run ⟨d, shape, .skip ⟨.array :: bs, .opened⟩⟩ (items.text ++ [']']) = _
    rw [run_opened_items]
    exact run_skip_items items bs []
  | .emptyObject gap =>
    refine ⟨_, .ended, ?_⟩
    change run ⟨d, shape, .skip ⟨.object :: bs, .opened⟩⟩ (gap.text ++ ['\x7d']) = _
    rw [run_waiting d shape (.inr (.inl rfl))]
    cases bs <;> rfl
  | .object members =>
    refine ⟨_, .ended, ?_⟩
    change run ⟨d, shape, .skip ⟨.object :: bs, .opened⟩⟩ (members.text ++ ['\x7d']) = _
    rw [run_opened_members]
    exact run_skip_members members bs []
  termination_by structural v

theorem run_skip_items (items : Items) (bs : List Bracket) (rest : List Char) :
    run ⟨d, shape, .skip ⟨.array :: bs, .value⟩⟩ (items.text ++ ']' :: rest) =
      run ⟨d, shape, behind bs⟩ rest := by
  match items with
  | .last before v after =>
    rw [Items.text_last, run_waiting d shape (.inl rfl),
      run_delimited d shape (run_skip_value v (.array :: bs)) after (by decide), run_close_array]
  | .more before v after items =>
    rw [Items.text_more, run_waiting d shape (.inl rfl),
      run_delimited d shape (run_skip_value v (.array :: bs)) after (by decide)]
    exact run_skip_items items bs rest
  termination_by structural items

theorem run_skip_members (members : Members) (bs : List Bracket) (rest : List Char) :
    run ⟨d, shape, .skip ⟨.object :: bs, .key⟩⟩ (members.text ++ '\x7d' :: rest) =
      run ⟨d, shape, behind bs⟩ rest := by
  match members with
  | .last before key colon v after =>
    rw [Members.text_last, run_skip_key,
      run_delimited d shape (run_skip_value v (.object :: bs)) after (by decide), run_close_object]
  | .more before key colon v after members =>
    rw [Members.text_more, run_skip_key,
      run_delimited d shape (run_skip_value v (.object :: bs)) after (by decide)]
    exact run_skip_members members bs rest
  termination_by structural members

end

end Reader

end GuestHost.Config
