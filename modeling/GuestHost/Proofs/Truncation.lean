import GuestHost.Proofs.ConfigDocument

/-!
Texts of a configuration that are cut. Main statement: what is left of an accepted text after its end
has been cut away is rejected, as cut short or as malformed, and never for what it says.
-/

namespace GuestHost.Config

open Json

/-! Numbers that are cut -/

/-- No number ends with one of these. -/
def cutMarks : List Char := ['-', '.', 'e', 'E', '+']

theorem complete_of_start {c : Char} {n : Numeral} (begun : Numeral.start? c = some n)
    (unmarked : c ∉ cutMarks) : n.isComplete = true := by
  unfold Numeral.start? at begun
  split at begun
  · rename_i minus
    exact absurd (by simp [minus, cutMarks]) unmarked
  · obtain ⟨d, _, rfl⟩ := Option.map_eq_some_iff.mp begun
    by_cases zero : d = 0 <;> simp [Numeral.isComplete, zero]

theorem complete_of_step {c : Char} {n n' : Numeral} (stepped : n.step c = .more n')
    (unmarked : c ∉ cutMarks) : n'.isComplete = true := by
  unfold Numeral.step at stepped
  dsimp only at stepped
  grind [Numeral.isComplete, cutMarks]

def Whole {ρ : Type} : Progress Skip ρ → Prop
  | .more s => s.isCutNumber = false
  | _ => True

theorem whole_ended (bs : List Bracket) : Whole (Skip.ended bs) := by
  cases bs <;> trivial

theorem whole_stepAfter (bs : List Bracket) (c : Char) : Whole (Skip.stepAfter bs c) := by
  unfold Skip.stepAfter
  split
  · rfl
  · split
    · rfl
    · rfl
    · exact whole_ended _
    · exact whole_ended _
    · trivial

theorem whole_stepKey (bs : List Bracket) (mode : SkipMode) (c : Char)
    (steady : Skip.isCutNumber ⟨bs, mode⟩ = false) : Whole (Skip.stepKey bs mode c) := by
  unfold Skip.stepKey
  split
  · exact steady
  · split <;> trivial

theorem whole_stepValue (bs : List Bracket) (mode : SkipMode) {c : Char} (unmarked : c ∉ cutMarks)
    (steady : Skip.isCutNumber ⟨bs, mode⟩ = false) : Whole (Skip.stepValue bs mode c) := by
  unfold Skip.stepValue
  split
  · exact steady
  · split
    · rfl
    · split
      · rfl
      · split
        · rfl
        · split
          · rfl
          · rename_i begun
            simp [Whole, Skip.isCutNumber, complete_of_start begun unmarked]
          · trivial

/-- Whether the last character was part of the value does not matter. -/
theorem whole_within (p : Progress Skip Unit) : Whole p → Whole (match p with
    | .more s => .more s
    | .done () => .done true
    | .malformed => .malformed : Progress Skip Bool) := by
  cases p <;> exact id

theorem whole_skip (s : Skip) {c : Char} (unmarked : c ∉ cutMarks) : Whole (s.step c) := by
  obtain ⟨bs, mode⟩ := s
  cases mode with
  | value => exact whole_within _ (whole_stepValue bs .value unmarked rfl)
  | opened =>
    simp only [Skip.step]
    split
    · exact whole_within _ (whole_ended _)
    · exact whole_within _ (whole_ended _)
    · exact whole_within _ (whole_stepKey _ .opened c rfl)
    · exact whole_within _ (whole_stepValue bs .opened unmarked rfl)
  | key => exact whole_within _ (whole_stepKey bs .key c rfl)
  | colon =>
    simp only [Skip.step]
    split
    · rfl
    · split <;> trivial
  | after => exact whole_within _ (whole_stepAfter bs c)
  | word left =>
    cases left with
    | nil => trivial
    | cons d left =>
      simp only [Skip.step]
      split
      · trivial
      · split
        · exact whole_within _ (whole_ended bs)
        · rfl
  | number n =>
    simp only [Skip.step]
    split
    · rename_i stepped
      simp [Whole, Skip.isCutNumber, complete_of_step stepped unmarked]
    · split
      · trivial
      · exact whole_within _ (whole_stepAfter bs c)
    · trivial
  | quoted q isKey =>
    simp only [Skip.step]
    split
    · rfl
    · split
      · rfl
      · exact whole_within _ (whole_ended bs)
    · trivial

/-! The reader at the end of a text that goes on -/

/-- A number that is passed over is cut here. -/
def Phase.CutsNumber : Phase → Prop
  | .skip s => s.isCutNumber = true
  | _ => False

namespace Reader

def Sound : Except ParseError Reader → Prop
  | .error _ => True
  | .ok r => ¬ r.phase.CutsNumber

theorem sound_step (r : Reader) {c : Char} (unmarked : c ∉ cutMarks) : Sound (r.step c) := by
  obtain ⟨d, shape, phase⟩ := r
  cases phase with
  | skip s =>
    have whole := whole_skip s unmarked
    simp only [step, stepAfter, goto]
    split
    · rename_i stepped
      rw [stepped] at whole
      exact Bool.eq_false_iff.mp whole
    · exact id
    · repeat' split
      all_goals first | exact id | trivial
    · trivial
  | colon field =>
    simp only [step, goto]
    split
    · exact id
    · split
      · cases field with
        | some field => exact id
        | none =>
          intro cut
          cases cut
      · trivial
  | _ =>
    -- From no other place does a step lead to a value that is passed over.
    simp only [step, stepTop, stepOpened, stepValue, stepAfter, stepComma, stepElement, takeKey,
      takeVariant, takeWord, stepQuoted, unwanted, goto]
    repeat' split
    all_goals first | exact id | trivial

/-- A number is cut only behind a mark, so behind the last character that was read. -/
theorem mark_of_cut {cs : List Char} {r : Reader} (read : run {} cs = .ok r)
    (cut : r.phase.CutsNumber) : ∃ c ∈ cutMarks, cs.getLast? = some c := by
  rcases List.eq_nil_or_concat cs with rfl | ⟨before, c, rfl⟩
  · cases read
    cases cut
  · refine ⟨c, Decidable.byContradiction fun unmarked => ?_, by simp⟩
    rw [List.concat_eq_append, run_append] at read
    cases first : run {} before with
    | error e =>
      rw [first] at read
      cases read
    | ok r₁ =>
      have sound := sound_step r₁ unmarked
      rw [first] at read
      change (r₁.step c).bind _ = _ at read
      cases stepped : r₁.step c with
      | error e =>
        rw [stepped] at read
        cases read
      | ok r₂ =>
        rw [stepped] at read sound
        cases read
        exact sound cut

theorem blank_of_finished {r r' : Reader} {rest : List Char} (finished : r.phase = .finished)
    (read : r.run rest = .ok r') : ∀ c ∈ rest, isBlank c = true := by
  induction rest with
  | nil => nofun
  | cons c rest ih =>
    have steps : r.step c = if isBlank c then .ok r else .error .malformed := by
      rw [step, finished]
    rw [run_cons, steps] at read
    split at read
    · rename_i blank
      intro c' member
      rcases List.mem_cons.mp member with rfl | later
      · exact blank
      · exact ih read c' later
    · cases read

/-! What is known of the reader in the middle of a text that is accepted -/

theorem hopeful_of_accepted {r : Reader} {rest : List Char} {c : Config}
    (ends : (r.run rest).bind finish = .ok c) : ¬ r.phase.IsRefusal := by
  intro refusal
  obtain ⟨e, failed⟩ := hopeless_of_refusal refusal rest
  rw [failed] at ends
  cases ends

theorem unfinished_of_accepted {r : Reader} {rest : List Char} {c : Config}
    (ends : (r.run rest).bind finish = .ok c) (more : rest ≠ [])
    (solid : isBlank (rest.getLast more) = false) : r.phase ≠ .finished := by
  intro finished
  cases read : r.run rest with
  | error e =>
    rw [read] at ends
    cases ends
  | ok r' =>
    have blank := blank_of_finished finished read _ (List.getLast_mem more)
    rw [solid] at blank
    cases blank

theorem finish_cut {r : Reader} (unfinished : r.phase ≠ .finished) (hopeful : ¬ r.phase.IsRefusal) :
    r.finish = .error .cutShort ∨ r.finish = .error .malformed ∧ r.phase.CutsNumber := by
  obtain ⟨d, shape, phase⟩ := r
  cases phase with
  | finished => exact absurd rfl unfinished
  | number n wanted => exact absurd trivial hopeful
  | skip s =>
    simp only [finish]
    split
    · rename_i cut
      exact .inr ⟨rfl, cut⟩
    · exact .inl rfl
  | _ => exact .inl rfl

end Reader

/-- A text that is accepted and does not end in white space is rejected wherever it is cut. It is cut
short, but for numbers among the values of unknown keys: one that is cut behind a sign, a point or an
exponent mark is malformed. -/
theorem ofText_cut {text cut : String} {c : Config} (accepted : ofText text = .ok c)
    (solid : ∀ last, text.toList.getLast? = some last → isBlank last = false)
    (early : cut.toList <+: text.toList) (proper : cut ≠ text) :
    ofText cut = .error (.parse .cutShort) ∨
      ofText cut = .error (.parse .malformed) ∧
        ∃ mark ∈ cutMarks, cut.toList.getLast? = some mark := by
  obtain ⟨rest, split⟩ := early
  have more : rest ≠ [] := by
    rintro rfl
    exact proper (String.toList_inj.mp (by simpa using split))
  have ends : (Reader.run {} (cut.toList ++ rest)).bind Reader.finish = .ok c := by
    rw [split]
    exact (ofText_ok_iff text c).mp accepted
  cases read : Reader.run {} cut.toList with
  | error e =>
    -- What is read is never taken back, so the whole text would have been refused as well.
    rw [Reader.run_append, read] at ends
    cases ends
  | ok r =>
    rw [Reader.run_append_of_ok read] at ends
    have last : text.toList.getLast? = some (rest.getLast more) := by
      rw [← split, List.getLast?_append, List.getLast?_eq_some_getLast more, Option.some_or]
    have hopeful := Reader.hopeful_of_accepted ends
    have unfinished := Reader.unfinished_of_accepted ends more (solid _ last)
    have reads : ofText cut = r.finish.mapError .parse := by
      change ((Reader.run {} cut.toList).bind Reader.finish).mapError _ = _
      rw [read]
      rfl
    rw [reads]
    rcases Reader.finish_cut unfinished hopeful with short | ⟨malformed, cutsNumber⟩
    · rw [short]
      exact .inl rfl
    · rw [malformed]
      exact .inr ⟨rfl, Reader.mark_of_cut read cutsNumber⟩

theorem ofText_cut_number :
    let text := "\x7b\"limit\":[-1],\"wasi\":false\x7d"
    let cut := "\x7b\"limit\":[-"
    ofText text = .ok { wasi := false } ∧
      (ofText cut = .error (.parse .cutShort) ∨
        ofText cut = .error (.parse .malformed) ∧
          ∃ mark ∈ cutMarks, cut.toList.getLast? = some mark) := by
  intro text cut
  have accepted : ofText "\x7b\"limit\":[-1],\"wasi\":false\x7d" = .ok { wasi := false } :=
    rfl
  have solid : text.toList.getLast? = some '\x7d' := by decide
  refine ⟨accepted, ofText_cut accepted ?_ ?_ ?_⟩
  · rw [solid]
    rintro _ ⟨⟩
    rfl
  · exact ⟨"1],\"wasi\":false\x7d".toList, by decide⟩
  · decide

end GuestHost.Config
