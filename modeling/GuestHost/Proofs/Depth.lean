import GuestHost.Proofs.Congruence
import GuestHost.World

/-!
How deep calls are nested shows in one way only. With fewer calls left a run goes as it would with
more, or the call stack is exhausted.
-/

namespace GuestHost

variable {α β : Type}

def World.SameAfter (w : World) (t t' : Trace) : Prop := ∀ u q, w (t ++ u) q = w (t' ++ u) q

namespace World.SameAfter

variable {w : World} {t t' : Trace}

theorem now (h : w.SameAfter t t') (q : Request) : w t q = w t' q := by
  simpa using h [] q

theorem next (h : w.SameAfter t t') (x : Exchange) : w.SameAfter (t ++ [x]) (t' ++ [x]) := by
  intro u q
  simpa using h (x :: u) q

end World.SameAfter

namespace Action

variable {Out : α → Prop} {Out' : β → Prop}

/-- The left computation goes as the right one does, but it may end early with a value that
satisfies `Out`. -/
inductive Within (Out : α → Prop) : Action α → Action α → Prop
  | same (x : Action α) : Within Out x x
  | out (a : α) (y : Action α) (isOut : Out a) : Within Out (.done a) y
  | ask (q : Request) {k l : q.Answer → Action α}
      (next : ∀ answer, Within Out (k answer) (l answer)) : Within Out (.ask q k) (.ask q l)

theorem Within.same_bind (x : Action α) {f g : α → Action β}
    (next : ∀ a, Within Out' (f a) (g a)) : Within Out' (x.bind f) (x.bind g) := by
  induction x with
  | done a => exact next a
  | ask q k ih => exact .ask q ih
  | exit status => exact .same _

theorem Within.bind {x y : Action α} {f g : α → Action β} (h : Within Out x y)
    (next : ∀ a, Within Out' (f a) (g a)) (stops : ∀ a, Out a → ∃ b, f a = .done b ∧ Out' b) :
    Within Out' (x.bind f) (y.bind g) := by
  induction h with
  | same x => exact same_bind x next
  | out a y isOut =>
    obtain ⟨b, stopped, isOut⟩ := stops a isOut
    rw [done_bind, stopped]
    exact .out b _ isOut
  | ask q _ ih => exact .ask q ih

theorem run_shift (x : Action α) {w : World} {t t' : Trace} (alike : w.SameAfter t t') :
    ∃ (ending : Ending α) (u : Trace), x.run w t = (ending, t ++ u) ∧
      x.run w t' = (ending, t' ++ u) := by
  induction x generalizing t t' with
  | done a => exact ⟨.value a, [], by simp [Action.run], by simp [Action.run]⟩
  | exit status => exact ⟨.exited status, [], by simp [Action.run], by simp [Action.run]⟩
  | ask q k ih =>
    have answer := alike.now q
    obtain ⟨ending, u, left, right⟩ := ih (w t q) (alike.next ⟨q, w t q⟩)
    refine ⟨ending, ⟨q, w t q⟩ :: u, ?_, ?_⟩
    · simpa [Action.run] using left
    · simpa [Action.run, ← answer] using right

theorem Within.run {x y : Action α} (h : Within Out x y) {w : World} {t t' : Trace}
    (alike : w.SameAfter t t') :
    (∃ (a : α) (u : Trace), x.run w t = (.value a, u) ∧ Out a) ∨
      ∃ (ending : Ending α) (u : Trace), x.run w t = (ending, t ++ u) ∧
        y.run w t' = (ending, t' ++ u) := by
  induction h generalizing t t' with
  | same x => exact .inr (run_shift x alike)
  | out a y isOut => exact .inl ⟨a, t, rfl, isOut⟩
  | ask q _ ih =>
    have answer := alike.now q
    rcases ih (w t q) (alike.next ⟨q, w t q⟩) with early | ⟨ending, u, left, right⟩
    · exact .inl early
    · refine .inr ⟨ending, ⟨q, w t q⟩ :: u, ?_, ?_⟩
      · simpa [Action.run] using left
      · simpa [Action.run, ← answer] using right

end Action

namespace Run

/-- Stopped by the machine with a fault of some kind. -/
def CutShort (limit : Wasm.Fault → Prop) (x : Except Stop α × Store) : Prop :=
  ∃ f, limit f ∧ x.1 = .error (.fault f)

def Within (limit : Wasm.Fault → Prop) (α : Type) (x y : Run α) : Prop :=
  ∀ s, Action.Within (CutShort limit) (x.startAt s) (y.startAt s)

variable {limit : Wasm.Fault → Prop}

theorem Within.refl (x : Run α) : Within limit α x x := fun s => .same (x.startAt s)

theorem Within.bind {x y : Run α} {f g : α → Run β} (h : Within limit α x y)
    (next : ∀ a, Within limit β (f a) (g a)) : Within limit β (x >>= f) (y >>= g) := by
  intro s
  rw [startAt_bind, startAt_bind]
  refine (h s).bind ?_ ?_
  · intro p
    rcases p with ⟨stop | a, s'⟩
    · exact .same _
    · exact next a s'
  · rintro ⟨r, s'⟩ ⟨fault, isLimit, rfl⟩
    exact ⟨_, rfl, fault, isLimit, rfl⟩

theorem within (limit : Wasm.Fault → Prop) :
    Congruence (fun e => e.isFatal = true) (Within limit) where
  pure _ := .refl _
  bind h next := h.bind next
  fault _ _ := .refl _
  fail _ _ := .refl _
  fatal _ _ := .refl _
  needing f call x y _ h s := by
    rw [startAt_needing, startAt_needing]
    split
    · exact h s
    · exact .same _
  ask _ _ _ := .refl _
  deliver _ _ := .refl _
  store same s := same s s (.refl s) s
  modify _ _ := .refl _
  stage _ := .refl _
  record _ := .refl _

end Run

/-- One call more below changes nothing unless the stack was exhausted. -/
theorem Image.callee_within (i : Image) (depth : Nat) (caller : Caller) (func : Nat) :
    Option.Rel (CalleeRel (Run.Within (· = .stackExhausted))) (i.callee depth caller func)
      (i.callee (depth + 1) caller func) := by
  induction depth generalizing caller func with
  | zero =>
    rw [callee, callee, calleeIn, calleeIn]
    cases i.code[func]? with
    | none => exact .none
    | some code => exact .some ⟨rfl, fun _ _ s => .out _ _ ⟨_, rfl, rfl⟩⟩
  | succ depth ih =>
    exact (Run.within _).simulation.callee_succ ((Run.within _).hostRel i.raises_fatal) ih caller
      func

end GuestHost
