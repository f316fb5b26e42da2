import GuestHost.Proofs.ConfigReading

/-!
The values of known keys. A value of the kind that a setting has is taken, in whatever way it is
written; behind any other no text can follow that the reader accepts.
-/

namespace GuestHost.Config

open Json

namespace Reader

/-! Values that are taken or refused -/

/-- No text can follow that the reader accepts. -/
def Hopeless (r : Reader) : Prop := ∀ rest, ∃ e, (r.run rest).bind finish = .error e

/-- Nothing was had, or nothing will be. -/
def Lost : Except ParseError Reader → Prop
  | .error _ => True
  | .ok r => r.Hopeless

theorem Lost.finish {x : Except ParseError Reader} (lost : Lost x) (rest : List Char) :
    ∃ e, (x.bind (·.run rest)).bind Reader.finish = .error e := by
  cases x with
  | error e => exact ⟨e, rfl⟩
  | ok r => exact lost rest

theorem Lost.run {x : Except ParseError Reader} (lost : Lost x) (cs : List Char) :
    Lost (x.bind (·.run cs)) := by
  cases x with
  | error e => trivial
  | ok r =>
    cases read : r.run cs with
    | error e =>
      change Lost (r.run cs)
      rw [read]
      trivial
    | ok r' =>
      change Lost (r.run cs)
      rw [read]
      intro rest
      obtain ⟨e, failed⟩ := lost (cs ++ rest)
      rw [run_append_of_ok read] at failed
      exact ⟨e, failed⟩

end Reader

def Phase.IsRefusal : Phase → Prop
  | .number .. | .string .. | .word _ (.mismatch ..) => True
  | _ => False

namespace Reader

variable (d : Draft) (shape : Shape)

theorem step_refusal {r r' : Reader} {c : Char} (refusal : r.phase.IsRefusal)
    (stepped : r.step c = .ok r') : r'.phase.IsRefusal := by
  obtain ⟨d, shape, phase⟩ := r
  cases phase with
  | number n wanted =>
    simp only [step] at stepped
    split at stepped <;> cases stepped
    trivial
  | string q wanted =>
    simp only [step, stepQuoted] at stepped
    split at stepped <;> cases stepped
    trivial
  | word left meaning =>
    cases meaning with
    | mismatch found wanted =>
      cases left with
      | nil => cases stepped
      | cons e left =>
        simp only [step, takeWord] at stepped
        split at stepped
        · cases stepped
        · split at stepped <;> cases stepped
          trivial
    | _ => cases refusal
  | _ => cases refusal

theorem finish_refusal {r : Reader} (refusal : r.phase.IsRefusal) : ∃ e, r.finish = .error e := by
  obtain ⟨d, shape, phase⟩ := r
  cases phase with
  | number n wanted => exact ⟨_, rfl⟩
  | string q wanted => exact ⟨_, rfl⟩
  | word left meaning => exact ⟨_, rfl⟩
  | _ => cases refusal

theorem hopeless_of_refusal {r : Reader} (refusal : r.phase.IsRefusal) : r.Hopeless := by
  intro rest
  induction rest generalizing r with
  | nil => exact finish_refusal refusal
  | cons c rest ih =>
    rw [run_cons]
    cases stepped : r.step c with
    | error e => exact ⟨e, rfl⟩
    | ok r' => exact ih (step_refusal refusal stepped)

theorem lost_unwanted (r : Reader) (wanted : Wanted) (c : Char) : Lost (r.unwanted wanted c) := by
  unfold unwanted
  split
  · exact hopeless_of_refusal (r := r.goto (.string { strict := true } wanted)) trivial
  · trivial
  · trivial
  · exact hopeless_of_refusal (r := r.goto (.word _ (.mismatch .null wanted))) trivial
  · exact hopeless_of_refusal (r := r.goto (.word _ (.mismatch (.boolean true) wanted))) trivial
  · exact hopeless_of_refusal (r := r.goto (.word _ (.mismatch (.boolean false) wanted))) trivial
  · split
    · exact hopeless_of_refusal (r := r.goto (.number _ wanted)) trivial
    · trivial

/-- The reader comes to a place, or to none from which a text is accepted. -/
def Yields (x : Except ParseError Reader) : Option Reader → Prop
  | some r => x = .ok r
  | none => Lost x

end Reader

/-! The values of known keys -/

def name? : Value → Option String
  | .string s => s.string?
  | .object (.last _ key _ .null _) => key.string?
  | _ => none

def Draft.give? (d : Draft) (f : Field) (v : Value) : Option Draft :=
  if f.isSwitch then match v with
    | .boolean b => some (d.switch b f)
    | _ => none
  else (name? v).bind (d.choose? · f)

namespace Reader

variable (d : Draft) (shape : Shape)

theorem step_switch {f : Field} (switch : f.isSwitch = true) {c : Char}
    (other : isBlank c = false ∧ c ≠ 't' ∧ c ≠ 'f') :
    step ⟨d, shape, .value f⟩ c = unwanted ⟨d, shape, .value f⟩ .boolean c := by
  simp [step, stepValue, switch, other]

theorem step_choice {f : Field} (choice : f.isSwitch = false) {c : Char}
    (other : isBlank c = false ∧ c ≠ '"' ∧ c ≠ '\x7b') :
    step ⟨d, shape, .value f⟩ c = .error .malformed := by
  simp [step, stepValue, choice, other]

theorem run_switch {f : Field} (switch : f.isSwitch = true) (b : Bool) :
    run ⟨d, shape, .value f⟩ (Value.boolean b).text = .ok ⟨d.switch b f, shape, .after⟩ := by
  cases b <;> simp [Value.text, step, stepValue, switch, isBlank, goto, takeWord] <;> rfl

theorem lost_switch {f : Field} (switch : f.isSwitch = true) {v : Value}
    (other : ∀ c ∈ v.starts, isBlank c = false ∧ c ≠ 't' ∧ c ≠ 'f') :
    Lost (run ⟨d, shape, .value f⟩ v.text) := by
  obtain ⟨c, cs, text, begins⟩ := v.exists_text_eq_cons
  rw [text, run_cons, step_switch d shape switch (other c begins)]
  exact (lost_unwanted _ _ _).run cs

theorem lost_choice {f : Field} (choice : f.isSwitch = false) {v : Value}
    (other : ∀ c ∈ v.starts, isBlank c = false ∧ c ≠ '"' ∧ c ≠ '\x7b') :
    Lost (run ⟨d, shape, .value f⟩ v.text) := by
  obtain ⟨c, cs, text, begins⟩ := v.exists_text_eq_cons
  rw [text, run_cons, step_choice d shape choice (other c begins)]
  trivial

theorem yields_switch {f : Field} (switch : f.isSwitch = true) (v : Value) :
    Yields (run ⟨d, shape, .value f⟩ v.text) ((d.give? f v).map fun d => ⟨d, shape, .after⟩) := by
  unfold Draft.give?
  rw [if_pos switch]
  cases v with
  | boolean b => exact run_switch d shape switch b
  | _ => exact lost_switch d shape switch (forall_of_all rfl)

def take (name : String) (f : Field) (next : Phase) : Except ParseError Reader :=
  match d.choose? name f with
  | some d => .ok ⟨d, shape, next⟩
  | none => .error (.data (.unknownVariant name f))

theorem run_variant (f : Field) (s : Token) (rest : List Char) :
    run ⟨d, shape, .variant { strict := true } f⟩ (s.text ++ '"' :: rest) = match s.string? with
      | some name => (take d shape name f .after).bind (·.run rest)
      | none => .error .malformed :=
  run_strict (fun q => ⟨d, shape, .variant q f⟩) _ (fun _ _ => rfl) s rest

theorem yields_string {f : Field} (choice : f.isSwitch = false) (s : Token) :
    Yields (run ⟨d, shape, .value f⟩ s.quoted)
      ((s.string?.bind (d.choose? · f)).map fun d => ⟨d, shape, .after⟩) := by
  have opened : step ⟨d, shape, .value f⟩ '"' = .ok ⟨d, shape, .variant { strict := true } f⟩ := by
    simp [step, stepValue, choice, isBlank, goto]
  have read : run ⟨d, shape, .value f⟩ s.quoted = _ :=
    (congrArg (·.bind (·.run (s.text ++ ['"']))) opened).trans (run_variant d shape f s [])
  rw [read]
  cases s.string? with
  | none => trivial
  | some name =>
    unfold take
    cases chosen : d.choose? name f <;> simp [chosen, Yields, Lost, Except.bind]

theorem run_box {f : Field} (choice : f.isSwitch = false) (before : Gap) (key : Token)
    (colon : Gap × Gap) (rest : List Char) :
    run ⟨d, shape, .value f⟩ ('\x7b' :: (keyText before key colon ++ rest)) =
      match key.string? with
      | some name => (take d shape name f .boxColon).bind
        (·.run (colon.1.text ++ ':' :: (colon.2.text ++ rest)))
      | none => .error .malformed := by
  have opened : step ⟨d, shape, .value f⟩ '\x7b' = .ok ⟨d, shape, .box f⟩ := by
    simp [step, stepValue, choice, isBlank, goto]
  have rests (b : Blank) : step ⟨d, shape, .box f⟩ b.char = .ok ⟨d, shape, .box f⟩ := by
    cases b <;> rfl
  rw [run_cons, opened, keyText_append]
  refine (run_gap_append rests before _).trans ?_
  exact run_strict (fun q => ⟨d, shape, .boxKey q f⟩) _ (fun _ _ => rfl) key _

/-- Behind the name stands null, or all is lost. -/
theorem run_boxColon (colon : Gap × Gap) (rest : List Char) :
    run ⟨d, shape, .boxColon⟩ (colon.1.text ++ ':' :: (colon.2.text ++ rest)) =
      run ⟨d, shape, .boxValue⟩ rest := by
  rw [run_gap_append (fun b => by cases b <;> rfl)]
  exact run_gap_append (fun b => by cases b <;> rfl) colon.2 rest

theorem run_boxNull (after : Gap) (rest : List Char) :
    run ⟨d, shape, .boxValue⟩ (Value.null.text ++ (after.text ++ rest)) =
      run ⟨d, shape, .boxEnd⟩ rest := by
  change run ⟨d, shape, .boxEnd⟩ (after.text ++ rest) = _
  exact run_gap_append (fun b => by cases b <;> rfl) after rest

theorem lost_boxValue {v : Value} (other : ∀ c ∈ v.starts, isBlank c = false ∧ c ≠ 'n')
    (rest : List Char) : Lost (run ⟨d, shape, .boxValue⟩ (v.text ++ rest)) := by
  obtain ⟨c, cs, text, begins⟩ := v.exists_text_eq_cons
  obtain ⟨noBlank, noNull⟩ := other c begins
  have refused : step ⟨d, shape, .boxValue⟩ c = unwanted ⟨d, shape, .boxValue⟩ .unit c := by
    simp [step, noBlank, noNull]
  rw [text, List.cons_append, run_cons, refused]
  exact (lost_unwanted _ _ _).run _

theorem lost_box {f : Field} (choice : f.isSwitch = false) (before : Gap) (key : Token)
    (colon : Gap × Gap) {rest : List Char}
    (lost : ∀ d : Draft, Lost (run ⟨d, shape, .boxValue⟩ rest)) :
    Lost (run ⟨d, shape, .value f⟩ ('\x7b' :: (keyText before key colon ++ rest))) := by
  rw [run_box d shape choice]
  cases key.string? with
  | none => trivial
  | some name =>
    dsimp only [take]
    cases d.choose? name f with
    | none => trivial
    | some d =>
      change Lost (run ⟨d, shape, .boxColon⟩ _)
      rw [run_boxColon]
      exact lost d

theorem yields_object {f : Field} (choice : f.isSwitch = false) (members : Members) :
    Yields (run ⟨d, shape, .value f⟩ (Value.object members).text)
      (((name? (.object members)).bind (d.choose? · f)).map fun d => ⟨d, shape, .after⟩) := by
  rw [Value.text]
  cases members with
  | last before key colon v after =>
    rw [List.cons_append, Members.text_last]
    cases v with
    | null =>
      rw [run_box d shape choice, name?]
      cases key.string? with
      | none => trivial
      | some name =>
        dsimp only [take, Option.bind_some]
        cases d.choose? name f with
        | none => trivial
        | some d =>
          change run ⟨d, shape, .boxColon⟩ _ = _
          rw [run_boxColon, run_boxNull]
          rfl
    | _ =>
      exact lost_box d shape choice before key colon fun d =>
        lost_boxValue d shape (forall_of_all rfl) _
  | more before key colon v after members =>
    rw [List.cons_append, Members.text_more]
    refine lost_box d shape choice before key colon fun d => ?_
    cases v with
    | null =>
      rw [run_boxNull]
      trivial
    | _ => exact lost_boxValue d shape (forall_of_all rfl) _

theorem yields_emptyObject {f : Field} (choice : f.isSwitch = false) (gap : Gap) :
    Lost (run ⟨d, shape, .value f⟩ (Value.emptyObject gap).text) := by
  have opened : step ⟨d, shape, .value f⟩ '\x7b' = .ok ⟨d, shape, .box f⟩ := by
    simp [step, stepValue, choice, isBlank, goto]
  rw [Value.text, List.cons_append, run_cons, opened]
  change Lost (run ⟨d, shape, .box f⟩ (gap.text ++ ['\x7d']))
  rw [run_gap_append (fun b => by cases b <;> rfl)]
  trivial

theorem yields_choice {f : Field} (choice : f.isSwitch = false) (v : Value) :
    Yields (run ⟨d, shape, .value f⟩ v.text) ((d.give? f v).map fun d => ⟨d, shape, .after⟩) := by
  unfold Draft.give?
  rw [choice]
  cases v with
  | string s => exact yields_string d shape choice s
  | object members => exact yields_object d shape choice members
  | emptyObject gap => exact yields_emptyObject d shape choice gap
  | _ => exact lost_choice d shape choice (forall_of_all rfl)

theorem yields_value (f : Field) (v : Value) :
    Yields (run ⟨d, shape, .value f⟩ v.text) ((d.give? f v).map fun d => ⟨d, shape, .after⟩) := by
  cases kind : f.isSwitch with
  | true => exact yields_switch d shape kind v
  | false => exact yields_choice d shape kind v

end Reader

end GuestHost.Config
