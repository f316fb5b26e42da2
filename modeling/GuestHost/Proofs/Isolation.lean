import GuestHost.Proofs.FatalReport
import Mathlib.Logic.Equiv.Basic

/-!
Guests of one session. Main statement: what a guest does and becomes among other guests it does and
becomes alone, as long as it is told the same by the outside world; and two steps in a row that are
about different guests can be taken the other way round.
-/

namespace GuestHost

variable {α β : Type}

/-! What computations do, in any world -/

/-- After the exchanges `t`, the world answers as in the exchanges that follow. -/
def World.Tells (w : World) : Trace → Trace → Prop
  | _, [] => True
  | t, x :: u => w t x.request = x.answer ∧ w.Tells (t ++ [x]) u

theorem World.tells_append {w : World} {t u v : Trace} :
    w.Tells t (u ++ v) ↔ w.Tells t u ∧ w.Tells (t ++ u) v := by
  induction u generalizing t with
  | nil => simp [Tells]
  | cons x u ih => simp [Tells, ih, and_assoc]

/-- The world that answers as in those exchanges from `n` exchanges on, and otherwise like another.
-/
def World.telling (w : World) (n : Nat) (u : Trace) : World := fun t q =>
  match u[t.length - n]? with
  | some x => if same : x.request = q then same ▸ x.answer else w t q
  | none => w t q

/-- Whatever is to be told, there is a world that tells it; so it asks nothing impossible of a world
to tell one computation what another was told. -/
theorem World.tells_telling (w : World) (t u : Trace) : (w.telling t.length u).Tells t u := by
  have from_here (p v : Trace) : (w.telling t.length (p ++ v)).Tells (t ++ p) v := by
    induction v generalizing p with
    | nil => trivial
    | cons x v ih =>
      have later := ih (p ++ [x])
      rw [List.append_assoc, ← List.append_assoc t] at later
      refine ⟨?_, later⟩
      simp [telling]
  simpa using from_here [] u

namespace Action

/-- Given these exchanges, the computation asks nothing else and ends with the value. -/
inductive Follows : Action α → Trace → α → Prop
  | done (a : α) : Follows (.done a) [] a
  | ask (q : Request) (k : q.Answer → Action α) (answer : q.Answer) {u : Trace} {a : α}
      (rest : Follows (k answer) u a) : Follows (.ask q k) (⟨q, answer⟩ :: u) a

theorem follows_of_run {x : Action α} {w : World} {t t' : Trace} {a : α}
    (ran : x.run w t = (.value a, t')) : ∃ u, t' = t ++ u ∧ x.Follows u a ∧ w.Tells t u := by
  induction x generalizing t with
  | done b =>
    cases ran
    exact ⟨[], by simp, .done _, trivial⟩
  | ask q k ih =>
    obtain ⟨u, rfl, follows, tells⟩ := ih _ ran
    exact ⟨⟨q, w t q⟩ :: u, by simp, .ask q k _ follows, rfl, tells⟩
  | exit status => cases ran

theorem Follows.run {x : Action α} {u : Trace} {a : α} (follows : x.Follows u a) {w : World}
    {t : Trace} (tells : w.Tells t u) : x.run w t = (.value a, t ++ u) := by
  induction follows generalizing t with
  | done a => simp [Action.run]
  | ask q k answer _ ih =>
    obtain ⟨same, tells⟩ := tells
    have rest := ih tells
    simp only at same
    simpa [Action.run, same] using rest

theorem Follows.of_bind {x : Action α} {f : α → Action β} {u : Trace} {b : β}
    (follows : (x.bind f).Follows u b) :
    ∃ a u₁ u₂, u = u₁ ++ u₂ ∧ x.Follows u₁ a ∧ (f a).Follows u₂ b := by
  induction x generalizing u with
  | done a => exact ⟨a, [], u, rfl, .done a, follows⟩
  | ask q k ih =>
    cases follows with
    | ask _ _ answer rest =>
      obtain ⟨a, u₁, u₂, rfl, first, later⟩ := ih answer rest
      exact ⟨a, _, u₂, rfl, .ask q k answer first, later⟩
  | exit status => cases follows

theorem follows_map {x : Action α} {f : α → β} {u : Trace} {b : β} :
    (x.bind fun a => .done (f a)).Follows u b ↔ ∃ a, x.Follows u a ∧ f a = b := by
  constructor
  · intro follows
    obtain ⟨a, u₁, _, rfl, first, ended⟩ := follows.of_bind
    cases ended
    exact ⟨a, by simpa using first, rfl⟩
  · rintro ⟨a, follows, rfl⟩
    induction follows with
    | done a => exact .done (f a)
    | ask q k answer _ ih => exact .ask q _ answer ih

end Action

namespace Session

/-- The steps are answered like that, each with its exchanges, and lead from one session to the
other. -/
inductive Runs : Session → List Step → List (Reply × Trace) → Session → Prop
  | nil (s : Session) : Runs s [] [] s
  | cons {s s₁ s' : Session} {q : Step} {r : Reply} {u : Trace} {qs : List Step}
      {xs : List (Reply × Trace)} (first : (s.step q).Follows u (r, s₁)) (rest : Runs s₁ qs xs s') :
      Runs s (q :: qs) ((r, u) :: xs) s'

def exchanged (xs : List (Reply × Trace)) : Trace := xs.flatMap (·.2)

theorem play_eq_iff {w : World} {s s' : Session} {t : Trace} {qs : List Step}
    {xs : List (Reply × Trace)} :
    play w s t qs = ⟨xs, .value s', []⟩ ↔ Runs s qs xs s' ∧ w.Tells t (exchanged xs) := by
  constructor
  · intro played
    induction qs generalizing s t xs with
    | nil =>
      cases played
      exact ⟨.nil _, trivial⟩
    | cons q qs ih =>
      rw [play] at played
      split at played
      · cases played
      · rename_i r s₁ t₁ ran
        obtain ⟨u, rfl, follows, tells⟩ := Action.follows_of_run ran
        obtain ⟨xs', rfl⟩ : ∃ xs', xs = (r, u) :: xs' := by
          simp only [List.drop_left, Transcript.mk.injEq] at played
          exact ⟨_, played.1.symm⟩
        have rest : play w s₁ (t ++ u) qs = ⟨xs', .value s', []⟩ := by
          simp only [List.drop_left, Transcript.mk.injEq, List.cons.injEq] at played
          obtain ⟨⟨_, rfl⟩, ended, left⟩ := played
          rw [← ended, ← left]
        obtain ⟨runs, told⟩ := ih rest
        exact ⟨.cons follows runs, World.tells_append.mpr ⟨tells, told⟩⟩
  · rintro ⟨runs, tells⟩
    induction runs generalizing t with
    | nil s => rfl
    | cons first _ ih =>
      obtain ⟨here, later⟩ := World.tells_append.mp tells
      rw [play_answered (first.run here), ih later]
      rfl

/-! One guest -/

def only (s : Session) (i : Nat) : Session := s[i]?.toList

def put (s : Session) (i : Nat) (z : Session) : Session := s.take i ++ z ++ s.drop (i + 1)

end Session

def Step.rename (σ : Nat → Nat) : Step → Step
  | create m text => create m text
  | call i name args => call (σ i) name args
  | hasExport i name => hasExport (σ i) name
  | memory i q => memory (σ i) q
  | pages i => pages (σ i)
  | grow i delta => grow (σ i) delta
  | host i q => host (σ i) q

/-- The step as it is taken where there is no other guest. -/
def Step.alone (q : Step) : Step := q.rename fun _ => 0

theorem Step.alone_rename (σ : Nat → Nat) (q : Step) : (q.rename σ).alone = q.alone := by
  cases q <;> rfl

theorem Step.asked?_rename (σ : Nat → Nat) (q : Step) : (q.rename σ).asked? = q.asked? := by
  cases q <;> rfl

namespace Session

theorem put_only (s : Session) (i : Nat) : s.put i (s.only i) = s := by
  unfold put only
  cases found : s[i]? with
  | none =>
    have beyond : s.length ≤ i := List.getElem?_eq_none_iff.mp found
    simp [List.take_of_length_le beyond, List.drop_eq_nil_of_le (Nat.le_succ_of_le beyond)]
  | some x =>
    obtain ⟨below, rfl⟩ := List.getElem?_eq_some_iff.mp found
    simp

theorem put_some {s : Session} {i : Nat} {g : Guest} (found : s.guest? i = some g)
    (x : Option Guest) : s.put i [x] = s.set i x := by
  have below : i < s.length := by
    apply Decidable.byContradiction
    intro beyond
    rw [guest?, List.getElem?_eq_none (Nat.le_of_not_lt beyond)] at found
    cases found
  rw [put, List.set_eq_take_append_cons_drop, if_pos below]
  simp

theorem onGuest_eq (s : Session) (i : Nat) (f : Guest → Action (Reply × Guest)) :
    s.onGuest i f = ((s.only i).onGuest 0 f).bind fun x => .done (x.1, s.put i x.2) := by
  have same : (s.only i).guest? 0 = s.guest? i := by
    unfold guest? only
    cases s[i]? <;> rfl
  unfold onGuest
  rw [same]
  cases found : s.guest? i with
  | none => simp [put_only]
  | some g =>
    have alone (g' : Guest) : (s.only i).set 0 (some g') = [some g'] := by
      unfold guest? at found
      unfold only
      cases at_i : s[i]? with
      | none => simp [at_i] at found
      | some _ => rfl
    simp [Action.bind_assoc, alone, put_some found]

theorem step_eq (s : Session) (q : Step) :
    s.step q = ((s.only (q.guest s.length)).step q.alone).bind fun x =>
      .done (x.1, s.put (q.guest s.length) x.2) := by
  cases q with
  | create m text =>
    have nothing : s.only s.length = [] := by simp [only]
    have last (x : Option Guest) : s.put s.length [x] = s ++ [x] := by simp [put]
    change s.create m text = ((s.only s.length).create m text).bind fun x =>
      .done (x.1, s.put s.length x.2)
    rw [nothing]
    unfold create
    cases Config.ofText text with
    | error e => simp [last]
    | ok c =>
      simp only [Action.bind_eq_bind, Action.bind_assoc]
      refine congrArg _ (funext fun made => ?_)
      cases made <;> simp [last]
  | _ => exact onGuest_eq ..

theorem length_onGuest {s s₁ : Session} {i : Nat} {f : Guest → Action (Reply × Guest)} {u : Trace}
    {r : Reply} (follows : (s.onGuest i f).Follows u (r, s₁)) : s₁.length = s.length := by
  unfold onGuest at follows
  split at follows
  · cases follows
    rfl
  · obtain ⟨_, _, _, _, _, ended⟩ := follows.of_bind
    cases ended
    exact List.length_set

theorem length_create {s s₁ : Session} {m : Option Wasm.Module} {text : String} {u : Trace}
    {r : Reply} (follows : (s.create m text).Follows u (r, s₁)) : s₁.length = s.length + 1 := by
  unfold create at follows
  split at follows
  · cases follows
    simp
  · obtain ⟨made, _, _, _, _, ended⟩ := follows.of_bind
    cases made <;>
    · cases ended
      simp

theorem length_step {s s₁ : Session} {q : Step} {u : Trace} {r : Reply}
    (follows : (s.step q).Follows u (r, s₁)) : s₁.length = s.length + q.asked?.toList.length := by
  cases q with
  | create m text => exact length_create follows
  | _ => exact length_onGuest follows

theorem only_put {s z : Session} {i : Nat}
    (fits : z.length = (s.only i).length ∨ i = s.length ∧ z.length = 1) (j : Nat) :
    (s.put i z).only j = if j = i then z else s.only j := by
  have at_j : (s.put i z)[j]? = if j = i then z[0]? else s[j]? := by
    unfold put only at *
    grind
  have short : z.length ≤ 1 := by
    have single : (s.only i).length ≤ 1 := by
      unfold only
      cases s[i]? <;> simp
    omega
  rw [only, at_j]
  split
  · rcases z with _ | ⟨x, _ | _⟩
    · rfl
    · rfl
    · simp at short
  · rfl

/-- What is asked for alone fits where the step is about. -/
theorem fits_of_alone {s z : Session} {q : Step} {u : Trace} {r : Reply}
    (follows : ((s.only (q.guest s.length)).step q.alone).Follows u (r, z)) :
    z.length = (s.only (q.guest s.length)).length ∨ q.guest s.length = s.length ∧ z.length = 1 := by
  have length := length_step follows
  rw [Step.alone, q.asked?_rename] at length
  cases q with
  | create m text =>
    refine .inr ⟨rfl, ?_⟩
    simpa [Step.guest, only, Step.asked?] using length
  | _ => exact .inl length

variable {s s₁ z : Session} {q : Step} {u : Trace} {r : Reply}

theorem alone_of_step (follows : (s.step q).Follows u (r, s₁)) :
    ((s.only (q.guest s.length)).step q.alone).Follows u (r, s₁.only (q.guest s.length)) ∧
      ∀ j, j ≠ q.guest s.length → s₁.only j = s.only j := by
  rw [step_eq, Action.follows_map] at follows
  obtain ⟨⟨_, z⟩, follows, same⟩ := follows
  cases same
  have fits := fits_of_alone follows
  constructor
  · rw [only_put fits, if_pos rfl]
    exact follows
  · intro j other
    rw [only_put fits, if_neg other]

theorem step_of_alone
    (follows : ((s.only (q.guest s.length)).step q.alone).Follows u (r, z)) :
    ∃ s₁, (s.step q).Follows u (r, s₁) ∧
      ∀ j, s₁.only j = if j = q.guest s.length then z else s.only j := by
  refine ⟨s.put (q.guest s.length) z, ?_, only_put (fits_of_alone follows)⟩
  rw [step_eq, Action.follows_map]
  exact ⟨(r, z), follows, rfl⟩

def belonging (i : Nat) : List Nat → List α → List α
  | j :: js, x :: xs => if j = i then x :: belonging i js xs else belonging i js xs
  | _, _ => []

/-- The steps that are about guest `i`, as they are taken without the others. -/
def alone (i made : Nat) (qs : List Step) : List Step :=
  (belonging i (subjects made qs) qs).map (·.alone)

theorem Runs.alone {s s' : Session} {qs : List Step} {xs : List (Reply × Trace)}
    (runs : Runs s qs xs s') (i : Nat) :
    Runs (s.only i) (Session.alone i s.length qs) (belonging i (subjects s.length qs) xs)
      (s'.only i) := by
  induction runs with
  | nil s => exact .nil _
  | cons first rest ih =>
    rename_i s s₁ s' q r u qs xs
    obtain ⟨here, others⟩ := alone_of_step first
    rw [length_step first] at ih
    unfold Session.alone at ih ⊢
    rw [subjects, belonging, belonging]
    by_cases own : q.guest s.length = i
    · subst own
      simp only [if_true, List.map_cons]
      exact .cons here ih
    · rw [if_neg own, if_neg own, ← others i (Ne.symm own)]
      exact ih

/-! Other orders -/

structure Renumbered (σ : Nat → Nat) (s s' : Session) : Prop where
  length : s'.length = s.length
  guests (i : Nat) : s'.only (σ i) = s.only i

def swapAt : Nat → List α → List α
  | 0, x :: y :: xs => y :: x :: xs
  | k + 1, x :: xs => x :: swapAt k xs
  | _, xs => xs

/-- The numbers of guests after steps `k` and `k + 1` were taken the other way round: two guests
that are made one after the other change theirs. -/
def swapping (made : Nat) : Nat → List Step → Equiv.Perm Nat
  | 0, .create .. :: .create .. :: _ => Equiv.swap made (made + 1)
  | k + 1, q :: qs => swapping (made + q.asked?.toList.length) k qs
  | _, _ => Equiv.refl Nat

theorem swapping_eq_self {made n : Nat} (before : n < made) (k : Nat) (qs : List Step) :
    swapping made k qs n = n := by
  induction k generalizing made qs with
  | zero =>
    unfold swapping
    split
    · exact Equiv.swap_apply_of_ne_of_ne (by omega) (by omega)
    · contradiction
    · rfl
  | succ k ih =>
    cases qs with
    | nil => rfl
    | cons q qs => exact ih (by omega) qs

theorem swapping_zero (made : Nat) (q₁ q₂ : Step) (qs : List Step) :
    swapping made 0 (q₁ :: q₂ :: qs) =
      if q₁.asked?.isSome ∧ q₂.asked?.isSome then Equiv.swap made (made + 1) else Equiv.refl Nat := by
  cases q₁ <;> cases q₂ <;> rfl

theorem Renumbered.step {σ : Equiv.Perm Nat} {s s₁ s' : Session} {q : Step} {u : Trace} {r : Reply}
    (same : Renumbered σ s s') (fixes : q.asked?.isSome → σ s.length = s.length)
    (follows : (s.step q).Follows u (r, s₁)) :
    ∃ s₁', (s'.step (q.rename σ)).Follows u (r, s₁') ∧ Renumbered σ s₁ s₁' := by
  obtain ⟨here, others⟩ := alone_of_step follows
  have about : (q.rename σ).guest s'.length = σ (q.guest s.length) := by
    cases q with
    | create m text => exact same.length.trans (fixes rfl).symm
    | _ => rfl
  rw [← same.guests, ← about, ← q.alone_rename σ] at here
  obtain ⟨s₁', follows', only_eq⟩ := step_of_alone here
  refine ⟨s₁', follows', ?_, fun i => ?_⟩
  · rw [length_step follows, length_step follows', q.asked?_rename, same.length]
  · rw [only_eq, about]
    by_cases own : i = q.guest s.length
    · rw [if_pos (congrArg σ own), own]
    · rw [if_neg fun same => own (σ.injective same), same.guests, others i own]

theorem Renumbered.runs {σ : Equiv.Perm Nat} {s s' t : Session} {qs : List Step}
    {xs : List (Reply × Trace)} (runs : Runs s qs xs s') (same : Renumbered σ s t)
    (fixes : ∀ n, s.length ≤ n → σ n = n) :
    ∃ t', Runs t (qs.map (·.rename σ)) xs t' ∧ Renumbered σ s' t' := by
  induction runs generalizing t with
  | nil s => exact ⟨t, .nil t, same⟩
  | cons first _ ih =>
    obtain ⟨t₁, first', same₁⟩ := same.step (fun _ => fixes _ (Nat.le_refl _)) first
    have grown := length_step first
    obtain ⟨t', rest, same'⟩ := ih same₁ fun n later => fixes n (by omega)
    exact ⟨t', .cons first' rest, same'⟩

theorem guest_swapped (made : Nat) (q₁ q₂ : Step) (qs : List Step) :
    (q₂.rename (swapping made 0 (q₁ :: q₂ :: qs))).guest made =
        swapping made 0 (q₁ :: q₂ :: qs) (q₂.guest (made + q₁.asked?.toList.length)) ∧
      (q₁.rename (swapping made 0 (q₁ :: q₂ :: qs))).guest (made + q₂.asked?.toList.length) =
        swapping made 0 (q₁ :: q₂ :: qs) (q₁.guest made) := by
  rw [swapping_zero]
  cases q₁ <;> cases q₂ <;> simp [Step.asked?, Step.rename, Step.guest]

theorem Renumbered.swap {s s₁ s₂ t : Session} {q₁ q₂ : Step} {qs : List Step} {u₁ u₂ : Trace}
    {r₁ r₂ : Reply} (same : Renumbered (swapping s.length 0 (q₁ :: q₂ :: qs)) s t)
    (first : (s.step q₁).Follows u₁ (r₁, s₁)) (second : (s₁.step q₂).Follows u₂ (r₂, s₂))
    (different : q₁.guest s.length ≠ q₂.guest s₁.length) :
    ∃ t₁ t₂, (t.step (q₂.rename (swapping s.length 0 (q₁ :: q₂ :: qs)))).Follows u₂ (r₂, t₁) ∧
      (t₁.step (q₁.rename (swapping s.length 0 (q₁ :: q₂ :: qs)))).Follows u₁ (r₁, t₂) ∧
      Renumbered (swapping s.length 0 (q₁ :: q₂ :: qs)) s₂ t₂ := by
  obtain ⟨about₂, about₁⟩ := guest_swapped s.length q₁ q₂ qs
  generalize swapping s.length 0 (q₁ :: q₂ :: qs) = σ at *
  rw [← length_step first, ← same.length] at about₂
  obtain ⟨here₁, others₁⟩ := alone_of_step first
  obtain ⟨here₂, others₂⟩ := alone_of_step second
  rw [others₁ _ different.symm, ← same.guests, ← about₂, ← q₂.alone_rename σ] at here₂
  obtain ⟨t₁, second', at₁⟩ := step_of_alone here₂
  have grown := length_step second'
  rw [q₂.asked?_rename, same.length] at grown
  rw [← grown] at about₁
  have apart : σ (q₁.guest s.length) ≠ σ (q₂.guest s₁.length) := fun same =>
    different (σ.injective same)
  have kept : t₁.only (σ (q₁.guest s.length)) = s.only (q₁.guest s.length) := by
    rw [at₁, about₂, if_neg apart, same.guests]
  rw [← kept, ← about₁, ← q₁.alone_rename σ] at here₁
  obtain ⟨t₂, first', at₂⟩ := step_of_alone here₁
  refine ⟨t₁, t₂, second', first', ?_, fun i => ?_⟩
  · rw [length_step first', grown, q₁.asked?_rename, length_step second, length_step first]
    omega
  · rw [at₂, about₁, at₁, about₂]
    by_cases own₁ : i = q₁.guest s.length
    · subst own₁
      rw [if_pos rfl, others₂ _ different]
    · rw [if_neg fun same => own₁ (σ.injective same)]
      by_cases own₂ : i = q₂.guest s₁.length
      · rw [if_pos (congrArg σ own₂), own₂]
      · rw [if_neg fun same => own₂ (σ.injective same), same.guests, others₂ i own₂, others₁ i own₁]

theorem swapping_zero_eq_self {s s₁ s₂ : Session} {q₁ q₂ : Step} {u₁ u₂ : Trace} {r₁ r₂ : Reply}
    (first : (s.step q₁).Follows u₁ (r₁, s₁)) (second : (s₁.step q₂).Follows u₂ (r₂, s₂))
    (qs : List Step) {n : Nat} (later : s₂.length ≤ n) :
    swapping s.length 0 (q₁ :: q₂ :: qs) n = n := by
  rw [length_step second, length_step first] at later
  rw [swapping_zero]
  split
  · rename_i both
    obtain ⟨_, asked₁⟩ := Option.isSome_iff_exists.mp both.1
    obtain ⟨_, asked₂⟩ := Option.isSome_iff_exists.mp both.2
    simp only [asked₁, asked₂, Option.toList_some, List.length_singleton] at later
    exact Equiv.swap_apply_of_ne_of_ne (by omega) (by omega)
  · rfl

/-- Two steps in a row that are about different guests can be taken the other way round. -/
theorem Runs.swap {s s' t : Session} {qs : List Step} {xs : List (Reply × Trace)}
    (runs : Runs s qs xs s') {k i j : Nat} (at_k : (subjects s.length qs)[k]? = some i)
    (next : (subjects s.length qs)[k + 1]? = some j) (different : i ≠ j)
    (same : Renumbered (swapping s.length k qs) s t) :
    ∃ t', Runs t ((swapAt k qs).map (·.rename (swapping s.length k qs))) (swapAt k xs) t' ∧
      Renumbered (swapping s.length k qs) s' t' := by
  -- Guests that are made before the two steps keep their numbers, so the steps before are taken as
  -- they are.
  induction k generalizing s t qs xs with
  | zero =>
    cases runs with
    | nil => cases at_k
    | cons first rest =>
      cases rest with
      | nil => cases next
      | cons second rest =>
        rw [subjects, subjects, ← length_step first] at next
        cases at_k
        cases next
        obtain ⟨t₁, t₂, second', first', same₂⟩ := same.swap first second different
        obtain ⟨t', rest', same'⟩ := same₂.runs rest fun n =>
          swapping_zero_eq_self first second _
        exact ⟨t', .cons second' (.cons first' rest'), same'⟩
  | succ k ih =>
    cases runs with
    | nil => cases at_k
    | cons first rest =>
      rename_i s₁ q r u qs xs
      have grown := length_step first
      have fixes (asks : q.asked?.isSome) :
          swapping s.length (k + 1) (q :: qs) s.length = s.length := by
        obtain ⟨_, asked⟩ := Option.isSome_iff_exists.mp asks
        exact swapping_eq_self (by simp [asked]) k qs
      obtain ⟨t₁, first', same₁⟩ := same.step fixes first
      rw [subjects, ← grown] at at_k next
      have tail : swapping s.length (k + 1) (q :: qs) = swapping s₁.length k qs := by
        rw [swapping, grown]
      rw [tail] at same₁ first' ⊢
      obtain ⟨t', rest', same'⟩ := ih rest at_k next same₁
      exact ⟨t', .cons first' rest', same'⟩

theorem rest_of_value {w : World} {s s' : Session} {t : Trace} {qs : List Step}
    (ended : (play w s t qs).ending = .value s') : (play w s t qs).rest = [] := by
  induction qs generalizing s t with
  | nil => rfl
  | cons q qs ih =>
    rw [play] at ended ⊢
    split at ended
    · cases ended
    · exact ih ended

/-- Guests that hand fatal errors back never end the process. -/
theorem exists_play (w : World) (t : Trace) {qs : List Step} (traps : ∀ a ∈ asked qs, ¬ a.Exits) :
    ∃ xs s, play w [] t qs = ⟨xs, .value s, []⟩ := by
  cases ended : (play w [] t qs).ending with
  | value s =>
    refine ⟨(play w [] t qs).replies, s, ?_⟩
    rw [← ended, ← rest_of_value ended]
  | exited status =>
    have nothing : MadeOf [] [] := ⟨rfl, fun _ _ found => by cases found⟩
    obtain ⟨_, _, a, asked, exits⟩ := (play_reports_from w nothing t qs).quit status ended
    exact absurd exits (traps a (List.mem_of_getElem? asked))

/-- Each guest fares as it would alone: where the world tells it the same, it gets the same answers,
exchanges the same, and ends up the same. -/
def FareAlone (qs : List Step) (xs : List (Reply × Trace)) (s : Session) : Prop :=
  ∀ (i : Nat) (w : World) (t : Trace), w.Tells t (exchanged (belonging i (subjects 0 qs) xs)) →
    play w [] t (alone i 0 qs) = ⟨belonging i (subjects 0 qs) xs, .value (s.only i), []⟩

/-- Two steps in a row that are about different guests can be taken the other way round: where the
world tells each step the same, all get the same answers, exchange the same, and all guests end up
the same. -/
def Commute (qs : List Step) (xs : List (Reply × Trace)) (s : Session) : Prop :=
  ∀ k i j : Nat, (subjects 0 qs)[k]? = some i → (subjects 0 qs)[k + 1]? = some j → i ≠ j →
    ∀ (w : World) (t : Trace), w.Tells t (exchanged (swapAt k xs)) →
      ∃ s', play w [] t ((swapAt k qs).map (·.rename (swapping 0 k qs))) =
        ⟨swapAt k xs, .value s', []⟩ ∧ Renumbered (swapping 0 k qs) s s'

/-- Guests are made of any modules, with configurations that hand fatal errors back, and any steps
are taken. Every step is answered. Each guest fares as it would alone, and steps about different
guests commute. -/
theorem play_isolated (w : World) (t : Trace) (qs : List Step)
    (traps : ∀ a ∈ asked qs, ¬ a.Exits) :
    ∃ xs s, play w [] t qs = ⟨xs, .value s, []⟩ ∧ FareAlone qs xs s ∧ Commute qs xs s := by
  obtain ⟨xs, s, played⟩ := exists_play w t traps
  obtain ⟨runs, _⟩ := play_eq_iff.mp played
  refine ⟨xs, s, played, fun i w t tells => ?_, fun k i j at_k next different w t tells => ?_⟩
  · exact play_eq_iff.mpr ⟨runs.alone i, tells⟩
  · obtain ⟨s', runs', same⟩ := runs.swap at_k next different ⟨rfl, fun _ => rfl⟩
    exact ⟨s', play_eq_iff.mpr ⟨runs', tells⟩, same⟩

def keepingModule : Wasm.Module where
  imports := [⟨"env", "setTempRet0", .func ⟨[.i32], []⟩⟩]
  funcs := [.forward ⟨[.i32], []⟩ 0]
  exports := [⟨"keep", .func, 1⟩]
  maxDepth := 10

def keepingSteps : List Step :=
  [.create (some keepingModule) "\x7b\"fatal\":\"trap\"\x7d",
    .create (some keepingModule) "\x7b\"fatal\":\"trap\"\x7d",
    .call 0 "keep" [7], .call 1 "keep" [8], .host 0 (.staging .get), .host 1 (.staging .get)]

theorem play_isolated_keeping : (∀ a ∈ asked keepingSteps, ¬ a.Exits) ∧
    ∃ xs s, play Surroundings.still.world [] [] keepingSteps = ⟨xs, .value s, []⟩ ∧
      FareAlone keepingSteps xs s ∧ Commute keepingSteps xs s := by
  have traps : ∀ a ∈ asked keepingSteps, ¬ a.Exits := by
    have read : Config.ofText "\x7b\"fatal\":\"trap\"\x7d" = .ok .trapping := by decide
    rintro a member ⟨c, read', exits⟩
    obtain rfl : a = ⟨some keepingModule, "\x7b\"fatal\":\"trap\"\x7d"⟩ := by
      simpa [asked, keepingSteps, Step.asked?] using member
    cases read.symm.trans read'
    cases exits
  exact ⟨traps, play_isolated Surroundings.still.world [] keepingSteps traps⟩

end Session

end GuestHost
