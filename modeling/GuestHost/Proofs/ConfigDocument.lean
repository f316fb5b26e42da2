import GuestHost.Proofs.ConfigValues

/-!
Whole texts. An object is read as its pairs, one after the other: those with unknown keys are passed
over, those with known keys taken or refused. An array of values that are taken is read like the
object that has them under the keys in order.
-/

namespace GuestHost.Config

open Json

/-! Pairs one after the other -/

def Draft.read? (d : Draft) : List (String × Value) → Option Draft
  | [] => some d
  | (key, v) :: pairs => match Field.ofKey? key with
    | none => d.read? pairs
    | some f => if d.has f then none else (d.give? f v).bind (·.read? pairs)

theorem Draft.read?_cons (d : Draft) (pair : String × Value) (pairs : List (String × Value)) :
    d.read? (pair :: pairs) = (d.read? [pair]).bind (·.read? pairs) := by
  obtain ⟨key, v⟩ := pair
  simp only [read?]
  cases Field.ofKey? key with
  | none => rfl
  | some f =>
    by_cases has : d.has f
    · simp [has]
    · simp [has]

namespace Reader

variable (d : Draft)

/-- The phases in which the next pair of an object may begin, or the next value of an array. -/
def Awaits (phase : Phase) : Prop := phase = .opened ∨ phase = .comma

theorem run_awaiting {phase : Phase} (awaits : Awaits phase) (shape : Shape) (g : Gap)
    (cs : List Char) : run ⟨d, shape, phase⟩ (g.text ++ cs) = run ⟨d, shape, phase⟩ cs := by
  apply run_gap_append
  intro b
  rcases awaits with rfl | rfl <;> cases shape <;> cases b <;> rfl

theorem run_colon (field : Option Field) (colon : Gap × Gap) (rest : List Char) :
    run ⟨d, .object, .colon field⟩ (colon.1.text ++ ':' :: (colon.2.text ++ rest)) =
      run ⟨d, .object, match field with | some f => .value f | none => .skip {}⟩ rest := by
  rw [run_gap_append (fun b => by cases b <;> rfl)]
  cases field with
  | none => exact run_waiting d .object (.inl rfl) [] colon.2 rest
  | some f =>
    refine run_gap_append (r := ⟨d, .object, .value f⟩) (fun b => ?_) colon.2 rest
    cases b <;> rfl

theorem run_key {phase : Phase} (awaits : Awaits phase) (before : Gap) (key : Token)
    {name : String} (means : key.string? = some name) (colon : Gap × Gap) (rest : List Char) :
    run ⟨d, .object, phase⟩ (keyText before key colon ++ rest) = match Field.ofKey? name with
      | none => run ⟨d, .object, .skip {}⟩ rest
      | some f =>
        if d.has f then .error (.data (.duplicateField f))
        else run ⟨d, .object, .value f⟩ rest := by
  have opened : step ⟨d, .object, phase⟩ '"' = .ok ⟨d, .object, .key { strict := true }⟩ := by
    rcases awaits with rfl | rfl <;> rfl
  rw [keyText_append, run_awaiting d awaits, run_cons, opened]
  refine (run_strict (fun q => ⟨d, .object, .key q⟩) (takeKey ⟨d, .object, .top⟩)
    (fun _ _ => rfl) key _).trans ?_
  rw [means]
  dsimp only [takeKey]
  cases Field.ofKey? name with
  | none => exact run_colon d none colon rest
  | some f =>
    dsimp only
    split
    · rfl
    · exact run_colon d (some f) colon rest

theorem yields_pair {phase : Phase} (awaits : Awaits phase) (before : Gap) (key : Token)
    {name : String} (means : key.string? = some name) (colon : Gap × Gap) (v : Value) (after : Gap)
    {c : Char} (delimits : c ∈ delimiters) {rest : List Char} {next : Draft → Option Reader}
    (goes : ∀ d, Yields (run ⟨d, .object, .after⟩ (c :: rest)) (next d)) :
    Yields (run ⟨d, .object, phase⟩ (keyText before key colon ++
      (v.text ++ (after.text ++ c :: rest)))) ((d.read? [(name, v)]).bind next) := by
  rw [run_key d awaits before key means]
  simp only [Draft.read?]
  cases Field.ofKey? name with
  | none =>
    dsimp only
    rw [run_delimited d .object (run_skip_value d .object v []) after delimits]
    exact goes d
  | some f =>
    dsimp only
    split
    · trivial
    · have taken := yields_value d .object f v
      cases given : d.give? f v with
      | none =>
        rw [given] at taken
        rw [run_append]
        exact Lost.run taken _
      | some d' =>
        rw [given] at taken
        have past : run ⟨d', .object, .after⟩ (after.text ++ c :: rest) =
          run ⟨d', .object, .after⟩ (c :: rest) := run_behind d' .object [] after _
        rw [run_append_of_ok taken, past]
        exact goes d'

theorem yields_members (members : Members) {pairs : List (String × Value)}
    (means : members.pairs? = some pairs) {phase : Phase} (awaits : Awaits phase) (d : Draft) :
    Yields (run ⟨d, .object, phase⟩ (members.text ++ ['\x7d']))
      ((d.read? pairs).map fun d => ⟨d, .object, .finished⟩) := by
  match members with
  | .last before key colon v after =>
    obtain ⟨name, named, rfl⟩ := Option.map_eq_some_iff.mp means
    rw [Members.text_last, Option.map_eq_bind]
    exact yields_pair d awaits before key named colon v after (by decide) fun d => rfl
  | .more before key colon v after members =>
    obtain ⟨name, named, others⟩ := Option.bind_eq_some_iff.mp means
    obtain ⟨pairs, mean, rfl⟩ := Option.map_eq_some_iff.mp others
    rw [Members.text_more, Draft.read?_cons, Option.map_bind]
    exact yields_pair d awaits before key named colon v after (by decide) fun d =>
      yields_members members mean (.inr rfl) d
  termination_by structural members

/-! Objects -/

theorem yields_outer {v : Value} {pairs : List (String × Value)} (means : v.pairs? = some pairs)
    (d : Draft) :
    Yields (run ⟨d, .object, .top⟩ v.text)
      ((d.read? pairs).map fun d => ⟨d, .object, .finished⟩) := by
  cases v with
  | emptyObject gap =>
    cases means
    change run ⟨d, .object, .opened⟩ (gap.text ++ ['\x7d']) = _
    rw [run_awaiting d (.inl rfl)]
    rfl
  | object members => exact yields_members members means (.inl rfl) d
  | _ => cases means

theorem run_document (doc : Document) :
    parse doc.text.toList = ((run {} doc.value.text).bind (·.run doc.after.text)).bind finish := by
  have text : doc.text.toList = doc.before.text ++ (doc.value.text ++ doc.after.text) := by
    simp [Document.text]
  have read : run {} doc.text.toList = (run {} doc.value.text).bind (·.run doc.after.text) := by
    rw [text, run_gap_append (fun b => by cases b <;> rfl), run_append]
  exact congrArg (·.bind finish) read

theorem Yields.finish {x : Except ParseError Reader} {o : Option Reader} (yields : Yields x o)
    (rest : List Char) (c : Config) : (x.bind (·.run rest)).bind Reader.finish = .ok c ↔
      ∃ r, o = some r ∧ (r.run rest).bind Reader.finish = .ok c := by
  cases o with
  | none =>
    obtain ⟨e, failed⟩ := Lost.finish yields rest
    simp [failed]
  | some r =>
    cases yields
    simp [Except.bind]

theorem run_finished (shape : Shape) (g : Gap) :
    (run ⟨d, shape, .finished⟩ g.text).bind finish = .ok d.config := by
  rw [run_gap (fun b => by cases b <;> rfl)]
  rfl

end Reader

theorem ofText_ok_iff (text : String) (c : Config) :
    ofText text = .ok c ↔ parse text.toList = .ok c := by
  unfold ofText
  cases parse text.toList with
  | error e => exact ⟨nofun, nofun⟩
  | ok c' => exact ⟨fun same => by cases same; rfl, fun same => by cases same; rfl⟩

theorem ofText_object {doc : Document} {pairs : List (String × Value)}
    (means : doc.value.pairs? = some pairs) (c : Config) :
    ofText doc.text = .ok c ↔ ∃ d, ({} : Draft).read? pairs = some d ∧ d.config = c := by
  rw [ofText_ok_iff, Reader.run_document, (Reader.yields_outer means {}).finish]
  constructor
  · rintro ⟨r, had, finished⟩
    obtain ⟨d, read, rfl⟩ := Option.map_eq_some_iff.mp had
    rw [Reader.run_finished] at finished
    exact ⟨d, read, Except.ok.inj finished⟩
  · rintro ⟨d, read, rfl⟩
    exact ⟨_, Option.map_eq_some_iff.mpr ⟨d, read, rfl⟩, Reader.run_finished d .object _⟩

/-! Arrays -/

def named (fields : List Field) (vs : List Value) : List (String × Value) :=
  fields.zipWith (fun f v => (f.key, v)) vs

theorem Field.ofKey?_key (f : Field) : ofKey? f.key = some f := by
  cases f <;> rfl

theorem Draft.read?_named {d d' : Draft} {f : Field} {left : List Field} {v : Value}
    {vs : List Value} (read : d.read? (named (f :: left) (v :: vs)) = some d') :
    ∃ d₁, d.give? f v = some d₁ ∧ d₁.read? (named left vs) = some d' := by
  rw [named, List.zipWith_cons_cons, Draft.read?, Field.ofKey?_key] at read
  dsimp only at read
  split at read
  · cases read
  · exact Option.bind_eq_some_iff.mp read

namespace Reader

variable (d : Draft)

theorem run_element {phase : Phase} (awaits : Awaits phase) (f : Field) (left : List Field)
    (before : Gap) (v : Value) (rest : List Char) :
    run ⟨d, .array (f :: left), phase⟩ (before.text ++ (v.text ++ rest)) =
      run ⟨d, .array left, .value f⟩ (v.text ++ rest) := by
  obtain ⟨c, cs, text, begins⟩ := v.exists_text_eq_cons
  obtain ⟨noBlank, noBracket⟩ := starts_other v c begins
  have same : step ⟨d, .array (f :: left), phase⟩ c = step ⟨d, .array left, .value f⟩ c := by
    rcases awaits with rfl | rfl
    · simp [step, stepOpened, noBlank, noBracket, stepElement, stepValue, goto, unwanted]
    · simp [step, stepComma, noBlank, noBracket, stepElement, stepValue, goto, unwanted]
  rw [run_awaiting d awaits, text, List.cons_append, run_cons, run_cons, same]

theorem run_taken {f : Field} {v : Value} {d₁ : Draft} (given : d.give? f v = some d₁)
    (left : List Field) (after : Gap) (rest : List Char) :
    run ⟨d, .array left, .value f⟩ (v.text ++ (after.text ++ rest)) =
      run ⟨d₁, .array left, .after⟩ rest := by
  have taken := yields_value d (.array left) f v
  rw [given] at taken
  rw [run_append_of_ok taken]
  exact run_behind d₁ (.array left) [] after rest

theorem run_items (items : Items) {left : List Field} (fits : items.values.length ≤ left.length)
    {phase : Phase} (awaits : Awaits phase) {d d' : Draft}
    (read : d.read? (named left items.values) = some d') :
    ∃ left', run ⟨d, .array left, phase⟩ (items.text ++ [']']) =
      .ok ⟨d', .array left', .finished⟩ := by
  match items, left with
  | .last before v after, f :: left =>
    obtain ⟨d₁, given, read⟩ := Draft.read?_named read
    rw [Items.text_last, run_element d awaits, run_taken d given]
    cases left <;> cases read <;> exact ⟨_, rfl⟩
  | .more before v after items, f :: left =>
    obtain ⟨d₁, given, read⟩ := Draft.read?_named read
    have fits : items.values.length ≤ left.length := Nat.le_of_succ_le_succ fits
    have more : step ⟨d₁, .array left, .after⟩ ',' = .ok ⟨d₁, .array left, .comma⟩ := by
      have nonempty : left ≠ [] := by
        rintro rfl
        cases items <;> cases fits
      simp [step, stepAfter, isBlank, nonempty, goto]
    rw [Items.text_more, run_element d awaits, run_taken d given, run_cons, more]
    exact run_items items fits (.inr rfl) read
  | .last .., [] => cases fits
  | .more .., [] => cases fits
  termination_by structural items

end Reader

/-- An array of right values, as many as there are settings or fewer, is read like the object. -/
theorem ofText_array {doc : Document} {vs : List Value} (items : doc.value.items? = some vs)
    (fits : vs.length ≤ Field.all.length) {d : Draft}
    (read : ({} : Draft).read? (named Field.all vs) = some d) :
    ofText doc.text = .ok d.config := by
  have finished : ∃ left, Reader.run {} doc.value.text = .ok ⟨d, .array left, .finished⟩ := by
    revert items
    cases doc.value with
    | emptyArray gap =>
      intro items
      cases items
      cases read
      refine ⟨Field.all, ?_⟩
      change Reader.run ⟨{}, .array Field.all, .opened⟩ (gap.text ++ [']']) = _
      rw [Reader.run_awaiting {} (.inl rfl)]
      rfl
    | array items =>
      intro same
      cases same
      exact Reader.run_items items fits (.inl rfl) read
    | _ => intro items; cases items
  obtain ⟨left, finished⟩ := finished
  rw [ofText_ok_iff, Reader.run_document, finished]
  exact Reader.run_finished d (.array left) doc.after

end GuestHost.Config
