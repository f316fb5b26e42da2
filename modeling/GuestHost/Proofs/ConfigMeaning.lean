import GuestHost.Proofs.ConfigDocument

/-!
What the text of a configuration means. In an object each known key may stand once, with a value of
its kind; the settings are then the values given, and the defaults for the rest. All other pairs,
the order of the pairs, white space and escapes make no difference. An array means the object that
has its values under the keys in order.
-/

namespace GuestHost.Config

open Json

/-! Values and settings -/

inductive Setting
  | fatal (p : FatalPolicy)
  | indirectCalls (p : IndirectCalls)
  | switch (b : Bool)
  deriving DecidableEq

def get (c : Config) : Field → Setting
  | .fatal => .fatal c.fatal
  | .indirectCalls => .indirectCalls c.indirectCalls
  | .heapGrowth => .switch c.heapGrowth
  | .wasi => .switch c.wasi
  | .captureOutput => .switch c.captureOutput

theorem ext_get {c c' : Config} (same : ∀ f, c.get f = c'.get f) : c = c' := by
  obtain ⟨fatal, calls, growth, wasi, capture⟩ := c
  obtain ⟨fatal', calls', growth', wasi', capture'⟩ := c'
  cases same .fatal
  cases same .indirectCalls
  cases same .heapGrowth
  cases same .wasi
  cases same .captureOutput
  rfl

/-- A name is written as a string, or as the one key of an object that has null under it. -/
inductive Names : Value → String → Prop
  | string {s : Token} {name : String} (means : s.string? = some name) : Names (.string s) name
  | object {before : Gap} {key : Token} {colon : Gap × Gap} {after : Gap} {name : String}
    (means : key.string? = some name) : Names (.object (.last before key colon .null after)) name

inductive Field.Admits : Field → Value → Setting → Prop
  | fatal {v : Value} {p : FatalPolicy} (names : Names v p.name) : Admits .fatal v (.fatal p)
  | indirectCalls {v : Value} {p : IndirectCalls} (names : Names v p.name) :
    Admits .indirectCalls v (.indirectCalls p)
  | heapGrowth (b : Bool) : Admits .heapGrowth (.boolean b) (.switch b)
  | wasi (b : Bool) : Admits .wasi (.boolean b) (.switch b)
  | captureOutput (b : Bool) : Admits .captureOutput (.boolean b) (.switch b)

theorem names_iff (v : Value) (name : String) : Names v name ↔ name? v = some name := by
  constructor
  · rintro (means | means) <;> exact means
  · intro means
    unfold name? at means
    split at means
    · exact .string means
    · exact .object means
    · cases means

theorem Names.unique {v : Value} {name name' : String} (names : Names v name)
    (names' : Names v name') : name = name' :=
  Option.some.inj (((names_iff ..).mp names).symm.trans ((names_iff ..).mp names'))

theorem policy_ofName? {name : String} {p : FatalPolicy} :
    FatalPolicy.ofName? name = some p ↔ p.name = name := by
  constructor
  · intro found
    simpa using List.find?_some found
  · rintro rfl
    cases p <;> rfl

theorem calls_ofName? {name : String} {p : IndirectCalls} :
    IndirectCalls.ofName? name = some p ↔ p.name = name := by
  constructor
  · intro found
    simpa using List.find?_some found
  · rintro rfl
    cases p <;> rfl

theorem Field.Admits.unique {f : Field} {v : Value} {s s' : Setting} (admits : f.Admits v s)
    (admits' : f.Admits v s') : s = s' := by
  cases admits with
  | @fatal _ p names =>
    cases admits' with
    | @fatal _ p' names' =>
      have same : some p = some p' :=
        (policy_ofName?.mpr (names.unique names')).symm.trans (policy_ofName?.mpr rfl)
      rw [Option.some.inj same]
  | @indirectCalls _ p names =>
    cases admits' with
    | @indirectCalls _ p' names' =>
      have same : some p = some p' :=
        (calls_ofName?.mpr (names.unique names')).symm.trans (calls_ofName?.mpr rfl)
      rw [Option.some.inj same]
  | heapGrowth b | wasi b | captureOutput b =>
    cases admits'
    rfl

namespace Draft

def get? (d : Draft) : Field → Option Setting
  | .fatal => d.fatal.map .fatal
  | .indirectCalls => d.indirectCalls.map .indirectCalls
  | .heapGrowth => d.heapGrowth.map .switch
  | .wasi => d.wasi.map .switch
  | .captureOutput => d.captureOutput.map .switch

theorem has_eq (d : Draft) (f : Field) : d.has f = (d.get? f).isSome := by
  cases f <;> simp [has, get?]

theorem get_config (d : Draft) (f : Field) :
    d.config.get f = (d.get? f).getD (Config.default.get f) := by
  obtain ⟨fatal, calls, growth, wasi, capture⟩ := d
  cases f
  · cases fatal <;> rfl
  · cases calls <;> rfl
  · cases growth <;> rfl
  · cases wasi <;> rfl
  · cases capture <;> rfl

theorem get?_switch (d : Draft) (b : Bool) {f g : Field} (other : g ≠ f) :
    (d.switch b f).get? g = d.get? g := by
  cases f <;> cases g <;> first | rfl | exact absurd rfl other

theorem get?_choose? {d d' : Draft} {name : String} {f g : Field}
    (chosen : d.choose? name f = some d') (other : g ≠ f) : d'.get? g = d.get? g := by
  cases f with
  | fatal =>
    obtain ⟨p, -, rfl⟩ := Option.map_eq_some_iff.mp chosen
    cases g <;> first | rfl | exact absurd rfl other
  | indirectCalls =>
    obtain ⟨p, -, rfl⟩ := Option.map_eq_some_iff.mp chosen
    cases g <;> first | rfl | exact absurd rfl other
  | _ => cases chosen

theorem get?_give? {d d' : Draft} {f : Field} {v : Value} (given : d.give? f v = some d') :
    ∃ s, f.Admits v s ∧ d'.get? f = some s ∧ ∀ g ≠ f, d'.get? g = d.get? g := by
  cases f with
  | fatal =>
    obtain ⟨name, named, chosen⟩ := Option.bind_eq_some_iff.mp given
    obtain ⟨p, found, rfl⟩ := Option.map_eq_some_iff.mp chosen
    rw [← policy_ofName?.mp found, ← names_iff] at named
    exact ⟨_, .fatal named, rfl, fun g other => get?_choose? chosen other⟩
  | indirectCalls =>
    obtain ⟨name, named, chosen⟩ := Option.bind_eq_some_iff.mp given
    obtain ⟨p, found, rfl⟩ := Option.map_eq_some_iff.mp chosen
    rw [← calls_ofName?.mp found, ← names_iff] at named
    exact ⟨_, .indirectCalls named, rfl, fun g other => get?_choose? chosen other⟩
  | heapGrowth =>
    cases v <;> cases given
    exact ⟨_, .heapGrowth _, rfl, fun g other => get?_switch d _ other⟩
  | wasi =>
    cases v <;> cases given
    exact ⟨_, .wasi _, rfl, fun g other => get?_switch d _ other⟩
  | captureOutput =>
    cases v <;> cases given
    exact ⟨_, .captureOutput _, rfl, fun g other => get?_switch d _ other⟩

theorem exists_give? {f : Field} {v : Value} {s : Setting} (admits : f.Admits v s) (d : Draft) :
    ∃ d', d.give? f v = some d' := by
  cases admits with
  | @fatal _ p names =>
    have chosen : d.choose? p.name .fatal = some { d with fatal := some p } :=
      Option.map_eq_some_iff.mpr ⟨p, policy_ofName?.mpr rfl, rfl⟩
    exact ⟨_, Option.bind_eq_some_iff.mpr ⟨_, (names_iff ..).mp names, chosen⟩⟩
  | @indirectCalls _ p names =>
    have chosen : d.choose? p.name .indirectCalls = some { d with indirectCalls := some p } :=
      Option.map_eq_some_iff.mpr ⟨p, calls_ofName?.mpr rfl, rfl⟩
    exact ⟨_, Option.bind_eq_some_iff.mpr ⟨_, (names_iff ..).mp names, chosen⟩⟩
  | heapGrowth b | wasi b | captureOutput b => exact ⟨_, rfl⟩

end Draft

/-! What pairs mean -/

def given (f : Field) (pairs : List (String × Value)) : List Value :=
  (pairs.filter (·.1 = f.key)).map (·.2)

/-- Each setting has the one value that is given for it, or its default if none is given. -/
def Means (pairs : List (String × Value)) (c : Config) : Prop :=
  ∀ f : Field, (given f pairs = [] ∧ c.get f = Config.default.get f) ∨
    ∃ v, given f pairs = [v] ∧ f.Admits v (c.get f)

/-- No setting is given twice, and each that is given has a value that it admits. -/
def Admissible (pairs : List (String × Value)) : Prop :=
  ∀ f : Field, (given f pairs).length ≤ 1 ∧ ∀ v ∈ given f pairs, ∃ s, f.Admits v s

theorem Means.unique {pairs : List (String × Value)} {c c' : Config} (means : Means pairs c)
    (means' : Means pairs c') : c = c' := by
  refine ext_get fun f => ?_
  rcases means f with ⟨absent, same⟩ | ⟨v, present, admits⟩
  · rcases means' f with ⟨-, same'⟩ | ⟨v, present, -⟩
    · exact same.trans same'.symm
    · cases absent.symm.trans present
  · rcases means' f with ⟨absent, -⟩ | ⟨v', present', admits'⟩
    · cases absent.symm.trans present
    · cases present.symm.trans present'
      exact admits.unique admits'

theorem Means.admissible {pairs : List (String × Value)} {c : Config} (means : Means pairs c) :
    Admissible pairs := by
  intro f
  rcases means f with ⟨absent, -⟩ | ⟨v, present, admits⟩
  · simp [absent]
  · simpa [present] using ⟨_, admits⟩

theorem Field.key_injective {f g : Field} (same : f.key = g.key) : f = g :=
  Option.some.inj ((ofKey?_key f).symm.trans ((congrArg ofKey? same).trans (ofKey?_key g)))

theorem Field.known_or (key : String) :
    (∃ f : Field, key = f.key) ∨ (ofKey? key = none ∧ ∀ f : Field, key ≠ f.key) := by
  cases found : ofKey? key with
  | none =>
    refine .inr ⟨rfl, ?_⟩
    rintro f rfl
    cases found.symm.trans (ofKey?_key f)
  | some f =>
    have hit : f.key = key := by simpa using List.find?_some found
    exact .inl ⟨f, hit.symm⟩

theorem given_self (f : Field) (v : Value) (pairs : List (String × Value)) :
    given f ((f.key, v) :: pairs) = v :: given f pairs := by
  simp [given]

theorem given_other {f : Field} {key : String} (other : key ≠ f.key) (v : Value)
    (pairs : List (String × Value)) : given f ((key, v) :: pairs) = given f pairs := by
  simp [given, other]

theorem Admissible.tail {pair : String × Value} {pairs : List (String × Value)}
    (admissible : Admissible (pair :: pairs)) : Admissible pairs := by
  intro f
  obtain ⟨once, admits⟩ := admissible f
  by_cases same : pair.1 = f.key
  · rw [show pair = (f.key, pair.2) from Prod.ext same rfl, given_self] at once admits
    exact ⟨Nat.le_of_succ_le once, fun v member => admits v (.tail _ member)⟩
  · rw [given_other same] at once admits
    exact ⟨once, admits⟩

namespace Draft

theorem read?_unknown (d : Draft) {key : String} (unknown : Field.ofKey? key = none) (v : Value)
    (pairs : List (String × Value)) : d.read? ((key, v) :: pairs) = d.read? pairs := by
  rw [read?, unknown]

theorem read?_known (d : Draft) (f : Field) (v : Value) (pairs : List (String × Value)) :
    d.read? ((f.key, v) :: pairs) =
      if d.get? f = none then (d.give? f v).bind (·.read? pairs) else none := by
  simp only [read?, Field.ofKey?_key, has_eq]
  cases d.get? f <;> rfl

/-- What reading leaves of the settings given before, and what it adds. -/
def Gains (d : Draft) (pairs : List (String × Value)) (d' : Draft) : Prop :=
  ∀ f : Field, (given f pairs = [] ∧ d'.get? f = d.get? f) ∨
    ∃ v s, given f pairs = [v] ∧ d.get? f = none ∧ f.Admits v s ∧ d'.get? f = some s

theorem gains_of_read? {pairs : List (String × Value)} {d d' : Draft}
    (read : d.read? pairs = some d') : d.Gains pairs d' := by
  induction pairs generalizing d with
  | nil =>
    cases read
    exact fun f => .inl ⟨rfl, rfl⟩
  | cons pair pairs ih =>
    obtain ⟨key, v⟩ := pair
    rcases Field.known_or key with ⟨g, rfl⟩ | ⟨unknown, other⟩
    · rw [read?_known] at read
      split at read
      case isFalse => cases read
      case isTrue free =>
        obtain ⟨d₁, had, later⟩ := Option.bind_eq_some_iff.mp read
        obtain ⟨s, admits, set, rest⟩ := get?_give? had
        intro f
        by_cases same : f = g
        · -- the setting is taken from here on, so the pairs behind cannot give it again
          subst same
          rw [given_self]
          rcases ih later f with ⟨absent, kept⟩ | ⟨_, _, _, none, -⟩
          · exact .inr ⟨v, s, by rw [absent], free, admits, kept.trans set⟩
          · cases set.symm.trans none
        · rw [given_other fun key => same (Field.key_injective key).symm, ← rest f same]
          exact ih later f
    · rw [read?_unknown d unknown] at read
      intro f
      rw [given_other (other f)]
      exact ih read f

theorem exists_read? {pairs : List (String × Value)} (admissible : Admissible pairs) {d : Draft}
    (free : ∀ f, given f pairs ≠ [] → d.get? f = none) : ∃ d', d.read? pairs = some d' := by
  induction pairs generalizing d with
  | nil => exact ⟨d, rfl⟩
  | cons pair pairs ih =>
    obtain ⟨key, v⟩ := pair
    rcases Field.known_or key with ⟨g, rfl⟩ | ⟨unknown, other⟩
    · obtain ⟨once, admits⟩ := admissible g
      rw [given_self] at once admits
      obtain ⟨s, admits⟩ := admits v (.head _)
      obtain ⟨d₁, had⟩ := exists_give? admits d
      obtain ⟨-, -, -, rest⟩ := get?_give? had
      have absent : given g pairs = [] := List.length_eq_zero_iff.mp (by simpa using once)
      rw [read?_known, if_pos (free g (by simp [given_self])), had, Option.bind_some]
      refine ih admissible.tail fun f present => ?_
      have other : f ≠ g := fun same => present (same ▸ absent)
      rw [rest f other]
      exact free f (by rwa [given_other fun key => other (Field.key_injective key).symm])
    · rw [read?_unknown d unknown]
      exact ih admissible.tail fun f present => free f (by rwa [given_other (other f)])

theorem get?_empty (f : Field) : ({} : Draft).get? f = none := by
  cases f <;> rfl

/-- What a text means is what is read from it. -/
theorem means_of_read? {pairs : List (String × Value)} {d : Draft}
    (read : ({} : Draft).read? pairs = some d) : Means pairs d.config := by
  intro f
  rw [get_config]
  rcases gains_of_read? read f with ⟨absent, kept⟩ | ⟨v, s, present, -, admits, set⟩
  · exact .inl ⟨absent, by rw [kept, get?_empty, Option.getD_none]⟩
  · exact .inr ⟨v, present, by rwa [set, Option.getD_some]⟩

end Draft

theorem ofText_ok_iff_means {doc : Document} {pairs : List (String × Value)}
    (object : doc.value.pairs? = some pairs) (c : Config) :
    ofText doc.text = .ok c ↔ Means pairs c := by
  rw [ofText_object object]
  constructor
  · rintro ⟨d, read, rfl⟩
    exact Draft.means_of_read? read
  · intro means
    obtain ⟨d, read⟩ := Draft.exists_read? means.admissible fun f _ => Draft.get?_empty f
    exact ⟨d, read, (Draft.means_of_read? read).unique means⟩

theorem exists_ofText_ok_iff {doc : Document} {pairs : List (String × Value)}
    (object : doc.value.pairs? = some pairs) :
    (∃ c, ofText doc.text = .ok c) ↔ Admissible pairs := by
  constructor
  · rintro ⟨c, read⟩
    exact ((ofText_ok_iff_means object c).mp read).admissible
  · intro admissible
    obtain ⟨d, read⟩ := Draft.exists_read? admissible fun f _ => Draft.get?_empty f
    exact ⟨d.config, (ofText_object object _).mpr ⟨d, read, rfl⟩⟩

/-! Texts that mean the same -/

def known (pairs : List (String × Value)) : List (String × Value) :=
  (pairs.filter fun pair => (Field.ofKey? pair.1).isSome).map fun pair => (pair.1, pair.2.bare)

theorem name?_bare (v : Value) : name? v.bare = name? v := by
  cases v with
  | object members =>
    cases members with
    | last before key colon v after => cases v <;> rfl
    | more => rfl
  | _ => rfl

theorem admits_bare (f : Field) (v : Value) (s : Setting) : f.Admits v.bare s ↔ f.Admits v s := by
  have names (name : String) : Names v.bare name ↔ Names v name := by
    rw [names_iff, names_iff, name?_bare]
  constructor
  · intro admits
    cases v with
    | boolean b => exact admits
    | string s => exact admits
    | _ =>
      cases admits with
      | fatal named => exact .fatal ((names _).mp named)
      | indirectCalls named => exact .indirectCalls ((names _).mp named)
  · intro admits
    cases admits with
    | fatal named => exact .fatal ((names _).mpr named)
    | indirectCalls named => exact .indirectCalls ((names _).mpr named)
    | heapGrowth b => exact .heapGrowth b
    | wasi b => exact .wasi b
    | captureOutput b => exact .captureOutput b

theorem given_known (f : Field) (pairs : List (String × Value)) :
    given f (known pairs) = (given f pairs).map Value.bare := by
  induction pairs with
  | nil => rfl
  | cons pair pairs ih =>
    obtain ⟨key, v⟩ := pair
    rcases Field.known_or key with ⟨g, rfl⟩ | ⟨unknown, other⟩
    · have kept : known ((g.key, v) :: pairs) = (g.key, v.bare) :: known pairs := by
        simp [known, Field.ofKey?_key]
      rw [kept]
      by_cases same : g = f
      · subst same
        rw [given_self, given_self, ih, List.map_cons]
      · have other : g.key ≠ f.key := fun key => same (Field.key_injective key)
        rw [given_other other, given_other other, ih]
    · have dropped : known ((key, v) :: pairs) = known pairs := by simp [known, unknown]
      rw [dropped, given_other (other f), ih]

theorem Means.of_perm {pairs pairs' : List (String × Value)}
    (same : (known pairs).Perm (known pairs')) {c : Config} (means : Means pairs c) :
    Means pairs' c := by
  intro f
  have same : ((given f pairs).map Value.bare).Perm ((given f pairs').map Value.bare) := by
    rw [← given_known, ← given_known]
    exact (same.filter _).map _
  rcases means f with ⟨absent, default⟩ | ⟨v, present, admits⟩
  · rw [absent, List.map_nil, List.nil_perm, List.map_eq_nil_iff] at same
    exact .inl ⟨same, default⟩
  · rw [present, List.map_singleton, List.singleton_perm, eq_comm,
      List.map_eq_singleton_iff] at same
    obtain ⟨v', present', bare⟩ := same
    exact .inr ⟨v', present', by rwa [← admits_bare, bare, admits_bare]⟩

/-! Arrays -/

theorem given_named {f : Field} {fields : List Field} (absent : f ∉ fields) (vs : List Value) :
    given f (named fields vs) = [] := by
  induction fields generalizing vs with
  | nil => rfl
  | cons g fields ih =>
    cases vs with
    | nil => rfl
    | cons v vs =>
      have other : g.key ≠ f.key := fun key => absent (Field.key_injective key ▸ .head fields)
      rw [named, List.zipWith_cons_cons, given_other other]
      exact ih (fun member => absent (.tail g member)) vs

theorem admissible_named {fields : List Field} (distinct : fields.Nodup) {vs : List Value}
    (admits : ∀ pair ∈ fields.zip vs, ∃ s, pair.1.Admits pair.2 s) :
    Admissible (named fields vs) := by
  induction fields generalizing vs with
  | nil => exact fun f => ⟨Nat.zero_le 1, fun v member => by cases member⟩
  | cons g fields ih =>
    cases vs with
    | nil => exact fun f => ⟨Nat.zero_le 1, fun v member => by cases member⟩
    | cons v vs =>
      obtain ⟨absent, distinct⟩ := List.nodup_cons.mp distinct
      intro f
      rw [named, List.zipWith_cons_cons]
      by_cases same : g = f
      · subst same
        rw [given_self, show given g (fields.zipWith _ vs) = [] from given_named absent vs]
        refine ⟨Nat.le_refl 1, fun v' member => ?_⟩
        obtain rfl := List.mem_singleton.mp member
        exact admits (g, v') (.head _)
      · rw [given_other fun key => same (Field.key_injective key)]
        exact ih distinct (fun pair member => admits pair (.tail _ member)) f

structure Faithful (read : String → Except Error Config) : Prop where
  /-- An object is read as what its pairs mean. -/
  meaning : ∀ (doc : Document) (pairs : List (String × Value)), doc.value.pairs? = some pairs →
    ∀ c, read doc.text = .ok c ↔ Means pairs c
  /-- It is read if its known pairs are right. -/
  acceptance : ∀ (doc : Document) (pairs : List (String × Value)),
    doc.value.pairs? = some pairs → ((∃ c, read doc.text = .ok c) ↔ Admissible pairs)
  /-- Unknown pairs, white space and the order of the pairs make no difference. -/
  invariance : ∀ (doc doc' : Document) (pairs pairs' : List (String × Value)),
    doc.value.pairs? = some pairs → doc'.value.pairs? = some pairs' →
    (known pairs).Perm (known pairs') → ∀ c, read doc.text = .ok c ↔ read doc'.text = .ok c
  /-- An array of right values is read as the object that has them under the keys in order. -/
  arrays : ∀ (doc : Document) (vs : List Value), doc.value.items? = some vs →
    vs.length ≤ Field.all.length → (∀ pair ∈ Field.all.zip vs, ∃ s, pair.1.Admits pair.2 s) →
    ∃ c, read doc.text = .ok c ∧ Means (named Field.all vs) c ∧ ∀ doc' : Document,
      doc'.value.pairs? = some (named Field.all vs) → read doc'.text = .ok c

theorem ofText_faithful : Faithful ofText where
  meaning _ _ object := ofText_ok_iff_means object
  acceptance _ _ object := exists_ofText_ok_iff object
  invariance _ _ _ _ object object' same c := by
    rw [ofText_ok_iff_means object, ofText_ok_iff_means object']
    exact ⟨Means.of_perm same, Means.of_perm same.symm⟩
  arrays doc vs items fits admits := by
    have admissible := admissible_named (by decide) admits
    obtain ⟨d, read⟩ := Draft.exists_read? admissible fun f _ => Draft.get?_empty f
    exact ⟨d.config, ofText_array items fits read, Draft.means_of_read? read,
      fun doc' object => (ofText_object object _).mpr ⟨d, read, rfl⟩⟩

def sample : Document where
  before := []
  value := .object
    (.more [.space] (Token.unit 0x66 ++ Token.plain ['a', 't', 'a', 'l']) ([], [.space])
      (.object (.last [] (Token.plain ['t', 'r', 'a', 'p']) ([], []) .null [])) []
    (.last [.lineFeed] (Token.plain ['l', 'i', 'm', 'i', 't']) ([], [])
      (.array (.last [] (.emptyObject []) [.tab])) []))
  after := [.lineFeed]

theorem ofText_sample :
    ofText "\x7b \"\\u0066atal\": \x7b\"trap\":null\x7d,\n\"limit\":[\x7b\x7d\t]\x7d\n" =
      .ok { fatal := .trap } := by
  refine (ofText_faithful.meaning sample _ rfl _).mpr fun f => ?_
  cases f with
  | fatal => exact .inr ⟨_, rfl, .fatal (.object rfl)⟩
  | _ => exact .inl ⟨rfl, rfl⟩

end GuestHost.Config
