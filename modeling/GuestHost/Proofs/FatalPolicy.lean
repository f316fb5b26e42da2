import GuestHost.Proofs.Congruence
import GuestHost.Proofs.Endings
import GuestHost.Session.Basic
import Mathlib.Data.List.Forall2

/-!
The two fatal policies. A session goes alike under both up to the first fatal error. There one
policy hands the error back as the outcome of the guest's call, and the other ends the process.
-/

namespace GuestHost

variable {α β : Type}

def Exchange.report (e : HostError) : Exchange := ⟨.log (fatalRecord e), ()⟩

def Exchange.lastWords (e : HostError) (taken : Bool) : Exchange :=
  ⟨.offer .stderr (fatalLine e), taken⟩

/-- No fatal error has come up. -/
def Trace.Calm (t : Trace) : Prop := ∀ x ∈ t, x.request.isReport = false

theorem Trace.Calm.cons {q : Request} {answer : q.Answer} {t : Trace} (other : q.isReport = false)
    (calm : t.Calm) : Trace.Calm (⟨q, answer⟩ :: t) := by
  intro x member
  rcases List.mem_cons.mp member with rfl | member
  · exact other
  · exact calm x member

namespace Action

variable {view : FatalPolicy → α → α} {view' : FatalPolicy → β → β} {F : HostError → α → Prop}
  {F' : HostError → β → Prop}

/-- Runs of one computation under both policies, with `exit` on the right. `view` shows a value as
it is under each of them, and `F` tells the values with which a fatal error can leave the left
run. -/
inductive Parting (view : FatalPolicy → α → α) (F : HostError → α → Prop) :
    Action α → Action α → Prop
  | done (a : α) : Parting view F (.done (view .trap a)) (.done (view .exit a))
  | ask (q : Request) {k l : q.Answer → Action α} (other : q.isReport = false)
      (next : ∀ answer, Parting view F (k answer) (l answer)) : Parting view F (.ask q k) (.ask q l)
  | fatal (e : HostError) (a : α) (isFatal : e.isFatal = true) (left : F e a) :
      Parting view F (.ask (.log (fatalRecord e)) fun _ => .done (view .trap a))
        (.ask (.log (fatalRecord e)) fun _ =>
          .ask (.offer .stderr (fatalLine e)) fun _ => .exit fatalStatus)

/-- What follows goes on from both values where there are two. After a fatal error nothing more may
happen on the left either. -/
theorem Parting.bind {x y : Action α} {f g : α → Action β} (h : Parting view F x y)
    (next : ∀ a, Parting view' F' (f (view .trap a)) (g (view .exit a)))
    (stops : ∀ e a, F e a → ∃ b, f (view .trap a) = .done (view' .trap b) ∧ F' e b) :
    Parting view' F' (x.bind f) (y.bind g) := by
  induction h with
  | done a => exact next a
  | ask q other _ ih => exact .ask q other ih
  | fatal e a isFatal left =>
    obtain ⟨b, stopped, left⟩ := stops e a left
    simp only [ask_bind, done_bind, exit_bind, stopped]
    exact .fatal e b isFatal left

/-- In a world the two runs exchange the same, and end in the same value; or the left one ends with
the report of a fatal error, and the right one after one exchange more. -/
theorem Parting.run {x y : Action α} (h : Parting view F x y) (w : World) (t : Trace) :
    (∃ (a : α) (u : Trace), u.Calm ∧ x.run w t = (.value (view .trap a), t ++ u) ∧
      y.run w t = (.value (view .exit a), t ++ u)) ∨
    ∃ (e : HostError) (a : α) (u : Trace) (taken : Bool), e.isFatal = true ∧ F e a ∧ u.Calm ∧
      x.run w t = (.value (view .trap a), t ++ (u ++ [.report e])) ∧
      y.run w t = (.exited fatalStatus, t ++ (u ++ [.report e, .lastWords e taken])) := by
  induction h generalizing t with
  | done a =>
    refine .inl ⟨a, [], by simp [Trace.Calm], ?_⟩
    simp [Action.run]
  | ask q other _ ih =>
    rcases ih (w t q) (t ++ [⟨q, w t q⟩]) with ⟨a, u, calm, left, right⟩ |
      ⟨e, a, u, taken, isFatal, failed, calm, left, right⟩
    · refine .inl ⟨a, ⟨q, w t q⟩ :: u, calm.cons other, ?_, ?_⟩
      · simpa [Action.run] using left
      · simpa [Action.run] using right
    · refine .inr ⟨e, a, ⟨q, w t q⟩ :: u, taken, isFatal, failed, calm.cons other, ?_, ?_⟩
      · simpa [Action.run] using left
      · simpa [Action.run] using right
  | fatal e a isFatal left =>
    refine .inr ⟨e, a, [], w (t ++ [.report e]) (.offer .stderr (fatalLine e)), isFatal, left,
      by simp [Trace.Calm], rfl, ?_⟩
    simp [Action.run, Exchange.report, Exchange.lastWords]

end Action

namespace Run

def outcomeUnder (p : FatalPolicy) (x : Except Stop α × Store) : Except Stop α × Store :=
  (x.1, x.2.under p)

def StoppedBy (e : HostError) (x : Except Stop α × Store) : Prop := x.1 = .error (.host e)

/-- Runs from a store that differs in the policy alone. -/
def Parting (α : Type) (x y : Run α) : Prop :=
  ∀ s : Store, Action.Parting outcomeUnder StoppedBy (x.startAt (s.under .trap))
    (y.startAt (s.under .exit))

theorem Parting.bind {x y : Run α} {f g : α → Run β} (h : Parting α x y)
    (next : ∀ a, Parting β (f a) (g a)) : Parting β (x >>= f) (y >>= g) := by
  intro s
  rw [startAt_bind, startAt_bind]
  apply (h s).bind
  · intro x
    rcases x with ⟨stop | a, s'⟩
    · exact .done (Except.error stop, s')
    · exact next a s'
  · intro e x stopped
    rcases x with ⟨r, s'⟩
    cases stopped
    exact ⟨(.error (.host e), s'), rfl, rfl⟩

theorem parting_ask (q : Request) (other : q.isReport = false) :
    Parting q.Answer (Run.ask q) (Run.ask q) := by
  intro s
  rw [startAt_ask, startAt_ask]
  exact .ask q other fun answer => .done (Except.ok answer, s)

theorem codeParting : CodeCongruence Parting where
  pure a s := .done (Except.ok a, s)
  bind h next := h.bind next
  fault f _ s := .done (Except.error (Stop.fault f), s)
  store same s := same _ _ (s.agree_under .trap .exit) s
  modify f same s := by
    change Action.Parting _ _ (.done (Except.ok (), f { s with host := s.host.under .trap }))
      (.done (Except.ok (), f { s with host := s.host.under .exit }))
    rw [same s (s.host.under .trap), same s (s.host.under .exit)]
    exact .done (Except.ok (), { f s with host := s.host })

theorem parting_deliver (stream : OutputStream) (chunks : List (List UInt8)) :
    Parting Bool (WasiCall.deliver stream chunks) (WasiCall.deliver stream chunks) := by
  intro s
  rw [WasiCall.startAt_deliver, WasiCall.startAt_deliver]
  change Action.Parting _ _ (if s.host.config.captureOutput then _ else _)
    (if s.host.config.captureOutput then _ else _)
  split
  · have kept : Action.Parting outcomeUnder StoppedBy _ _ :=
      .done (Except.ok true, { s with host := s.host.capture stream chunks.flatten })
    cases stream <;> exact kept
  · exact codeParting.sendAll stream (fun bytes => parting_ask (.offer stream bytes) rfl) chunks s

theorem parting_fatal (e : HostError) (isFatal : e.isFatal = true) :
    Parting α (Run.fatal e) (Run.fatal e) := by
  intro s
  rw [startAt_fatal, startAt_fatal]
  exact .fatal e (Except.error (Stop.host e), s) isFatal rfl

theorem parting_needing (f : Feature) (call : String) {x y : Run α} (h : Parting α x y) :
    Parting α (Run.needing f call x) (Run.needing f call y) := by
  intro s
  rw [startAt_needing, startAt_needing]
  have has (p : FatalPolicy) : (s.under p).host.config.has f = s.host.config.has f := by
    cases f <;> rfl
  rw [has, has]
  split
  · exact h s
  · exact parting_fatal _ rfl s

/-- Everything that guests and host functions do goes alike under both policies up to the first
fatal error. -/
theorem parting : Congruence (fun e => e.isFatal = true) Parting where
  toCodeCongruence := codeParting
  fail e _ s := .done (Except.error (Stop.host e), s)
  fatal := parting_fatal
  needing f call _ _ _ h := parting_needing f call h
  ask q plain _ := parting_ask q (Request.isReport_of_isGrave plain)
  deliver := parting_deliver
  stage r s := .done (Except.ok (), { s with host := { s.host with staging := r } })
  record notice s := .done (Except.ok (), { s with host := s.host.recordGrowth notice })

end Run

namespace Guest

open Wasm (Module)

def under (p : FatalPolicy) (g : Guest) : Guest := { g with store := g.store.under p }

def outcomeUnder (p : FatalPolicy) (x : Except GuestError (List (BitVec 64)) × Guest) :
    Except GuestError (List (BitVec 64)) × Guest := (x.1, x.2.under p)

def madeUnder (p : FatalPolicy) (x : Except GuestError Guest) : Except GuestError Guest :=
  x.map (under p)

/-- The error that is handed back has `e` behind it. -/
def FailedBy (e : HostError) (x : Except GuestError α) : Prop :=
  ∃ err, x = .error err ∧ err.hostError? = some e

theorem prepare_under (p : FatalPolicy) (g : Guest) : (g.under p).prepare = g.prepare := rfl

theorem memory?_under (p : FatalPolicy) (g : Guest) : (g.under p).memory? = g.memory? := rfl

theorem parting_call (g : Guest) (name : String) (args : List (BitVec 64)) :
    Action.Parting outcomeUnder (fun e x => FailedBy e x.1) ((g.under .trap).call name args)
      ((g.under .exit).call name args) := by
  rw [call_eq, call_eq, prepare_under, prepare_under]
  cases prepared : g.prepare name args with
  | error e => exact .done (Except.error e, g)
  | ok run =>
    have typed := types_of_prepare prepared
    apply Action.Parting.bind (Run.parting.call g.image.raises_fatal .embedder _ _ typed g.store)
    · intro x
      exact .done (outcome x.1, { g with store := x.2 })
    · intro e x stopped
      rcases x with ⟨result, store⟩
      cases stopped
      exact ⟨(outcome (.error (.host e)), { g with store := store }), rfl, _, rfl, rfl⟩

theorem parting_runSetup (g : Guest) :
    Action.Parting madeUnder FailedBy (runSetup (g.under .trap)) (runSetup (g.under .exit)) := by
  unfold runSetup
  change Action.Parting _ _ (if g.hasExport setupExport then _ else _)
    (if g.hasExport setupExport then _ else _)
  split
  · apply Action.Parting.ask _ rfl
    intro _
    apply (parting_call g setupExport []).bind
    · intro x
      rcases x with ⟨e | words, g⟩
      · exact .done (Except.error { e with stage := .setup })
      · exact .done (Except.ok g)
    · intro e x failed
      rcases x with ⟨_, g⟩
      obtain ⟨err, rfl, behind⟩ := failed
      exact ⟨.error { err with stage := .setup }, rfl, _, rfl, behind⟩
  · exact .done (Except.ok g)

theorem parting_bringUp (m : Module) (image : Image) (c : Config) :
    Action.Parting madeUnder FailedBy (bringUp m image (c.under .trap))
      (bringUp m image (c.under .exit)) := by
  apply Action.Parting.ask _ rfl
  intro origin
  rw [Action.done_bind, Action.done_bind]
  apply Action.Parting.bind (Run.parting.startUp m image.raises_fatal (freshStore m c origin))
  · intro x
    rcases x with ⟨stop | _, store⟩
    · exact .done (Except.error (GuestError.mk .instantiate (.stopped stop)))
    · exact .ask _ rfl fun _ => parting_runSetup ⟨image, store⟩
  · intro e x stopped
    rcases x with ⟨_, store⟩
    cases stopped
    exact ⟨.error ⟨.instantiate, .stopped (.host e)⟩, rfl, _, rfl, rfl⟩

theorem registrar_under (p : FatalPolicy) (c : Config) : registrar (c.under p) = registrar c := rfl

theorem parting_instantiate (m : Module) (c : Config) :
    Action.Parting madeUnder FailedBy (instantiate m (c.under .trap))
      (instantiate m (c.under .exit)) := by
  rw [instantiate_eq, instantiate_eq, registrar_under, registrar_under]
  split
  · exact .done (Except.error _)
  · split
    · exact .done (Except.error _)
    · apply Action.Parting.ask _ rfl
      intro _
      rw [Action.done_bind, Action.done_bind]
      split
      · exact .done (Except.error _)
      · split
        · exact .done (Except.error _)
        · exact parting_bringUp m _ c

theorem parting_load (m : Option Module) (c : Config) :
    Action.Parting madeUnder FailedBy (load m (c.under .trap)) (load m (c.under .exit)) := by
  cases m with
  | none => exact .done (Except.error _)
  | some m => exact parting_instantiate m c

end Guest

def Reply.under (p : FatalPolicy) : Reply → Reply
  | config c => config (c.under p)
  | r => r

def Reply.Tells (e : HostError) (r : Reply) : Prop :=
  ∃ err, r = .guestError err ∧ err.hostError? = some e

theorem MemoryRequest.serve_under (p : FatalPolicy) (m : Memory) (q : MemoryRequest) :
    ((q.serve m).1.under p, (q.serve m).2) = q.serve m := by
  have answer {α : Type} (f : α → Reply) (same : ∀ a, (f a).under p = f a)
      (x : Except HostError α) : (MemoryRequest.answer f x).under p = MemoryRequest.answer f x := by
    cases x with
    | error e => rfl
    | ok a => exact same a
  have change (x : Except HostError Memory) :
      ((MemoryRequest.change m x).1.under p, (MemoryRequest.change m x).2) =
        MemoryRequest.change m x := by
    cases x <;> rfl
  cases q with
  | size => rfl
  | read | any | readU32 => exact Prod.ext (answer _ (fun _ => rfl) _) rfl
  | write | fill | writeU32 | writeU64 | copy => exact change _

namespace Session

def under (p : FatalPolicy) (s : Session) : Session := s.map (Option.map (Guest.under p))

def answerUnder {γ : Type} (view : FatalPolicy → γ → γ) (p : FatalPolicy) (x : Reply × γ) :
    Reply × γ := (x.1.under p, view p x.2)

theorem guest?_map (view : Guest → Guest) (s : Session) (i : Nat) :
    guest? (s.map (Option.map view)) i = (s.guest? i).map view := by
  simp only [guest?, List.getElem?_map]
  cases s[i]? <;> rfl

theorem set_map (view : Guest → Guest) (s : Session) (i : Nat) (g : Guest) :
    (s.map (Option.map view)).set i (some (view g)) = (s.set i (some g)).map (Option.map view) := by
  simp [List.map_set]

theorem guest?_set {s : Session} {i : Nat} {g : Guest} (found : s.guest? i = some g) (g' : Guest)
    (j : Nat) :
    guest? (s.set i (some g')) j = if j = i then some g' else s.guest? j := by
  have below : i < s.length := by
    apply Decidable.byContradiction
    intro beyond
    rw [guest?, List.getElem?_eq_none (Nat.le_of_not_lt beyond)] at found
    cases found
  by_cases same : j = i
  · subst same
    simp [guest?, below]
  · rw [if_neg same, guest?, guest?, List.getElem?_set_ne (Ne.symm same)]

theorem guest?_under (p : FatalPolicy) (s : Session) (i : Nat) :
    (s.under p).guest? i = (s.guest? i).map (Guest.under p) := guest?_map _ s i

theorem set_under (p : FatalPolicy) (s : Session) (i : Nat) (g : Guest) :
    (s.under p).set i (some (g.under p)) = under p (s.set i (some g)) := set_map _ s i g

theorem append_under (p : FatalPolicy) (s : Session) (g : Option Guest) :
    s.under p ++ [g.map (Guest.under p)] = under p (s ++ [g]) := by
  simp [under]

variable {γ : Type} {view : FatalPolicy → γ → γ} {F : HostError → Reply × γ → Prop}

theorem parting_answer {r : Reply} (blind : ∀ p, r.under p = r) (a : γ) :
    Action.Parting (answerUnder view) F (.done (r, view .trap a)) (.done (r, view .exit a)) := by
  have answered : Action.Parting (answerUnder view) F _ _ := .done (r, a)
  simp only [answerUnder, blind] at answered
  exact answered

theorem parting_append {F : HostError → Reply × Session → Prop} {r : Reply}
    (blind : ∀ p, r.under p = r) (s : Session) (g : Option Guest) :
    Action.Parting (answerUnder under) F (.done (r, s.under .trap ++ [g.map (Guest.under .trap)]))
      (.done (r, s.under .exit ++ [g.map (Guest.under .exit)])) := by
  rw [append_under, append_under]
  exact parting_answer blind (s ++ [g])

theorem parting_onGuest (s : Session) (i : Nat) {f : Guest → Action (Reply × Guest)}
    (alike : ∀ g : Guest, Action.Parting (answerUnder Guest.under) (fun e x => x.1.Tells e)
      (f (g.under .trap)) (f (g.under .exit))) :
    Action.Parting (answerUnder under) (fun e x => x.1.Tells e) ((s.under .trap).onGuest i f)
      ((s.under .exit).onGuest i f) := by
  unfold onGuest
  rw [guest?_under, guest?_under]
  cases s.guest? i with
  | none => exact .done (Reply.noGuest, s)
  | some g =>
    apply (alike g).bind
    · intro x
      rcases x with ⟨reply, g⟩
      dsimp only [answerUnder]
      rw [set_under, set_under]
      exact .done (reply, s.set i (some g))
    · intro e x tells
      rcases x with ⟨reply, g⟩
      refine ⟨(reply, s.set i (some g)), ?_, tells⟩
      dsimp only [answerUnder]
      rw [set_under]
      rfl

theorem parting_onMemory (s : Session) (i : Nat) {f : LinearMemory → Reply × LinearMemory}
    (blind : ∀ m p, (f m).1.under p = (f m).1) :
    Action.Parting (answerUnder under) (fun e x => x.1.Tells e) ((s.under .trap).onMemory i f)
      ((s.under .exit).onMemory i f) := by
  apply parting_onGuest s i
  intro g
  rw [Guest.memory?_under, Guest.memory?_under]
  split
  · exact .done (Reply.noMemory, g)
  · rename_i m _
    exact parting_answer (blind m) (g.setMemory (f m).2)

theorem parting_host (h : HostState) (q : HostRequest) :
    Action.Parting (answerUnder HostState.under) (fun _ _ => False) (q.serve (h.under .trap))
      (q.serve (h.under .exit)) := by
  cases q with
  | staging q =>
    have answered : Action.Parting (answerUnder HostState.under) (fun _ _ => False) _ _ :=
      .done ((q.serve h.staging).1, { h with staging := (q.serve h.staging).2 })
    cases q <;> exact answered
  | describeStaging => exact .done (Reply.text _, h)
  | record notice => exact .done (Reply.nothing, h.recordGrowth notice)
  | notices => exact .done (Reply.notices _, h)
  | output stream => cases stream <;> exact .done (Reply.bytes _, h)
  | push stream bytes =>
    cases stream with
    | stdout => exact .done (Reply.nothing, h.capture .stdout bytes)
    | stderr => exact .done (Reply.nothing, h.capture .stderr bytes)
  | takeOutput => exact .done (Reply.outputs _ _, { h with stdout := [], stderr := [] })
  | config => exact .done (Reply.config h.config, h)
  | monotonic => exact .ask _ rfl fun _ => .ask _ rfl fun _ => .done (Reply.flag _, h)

/-- One step of an embedder that asks for `trap`, and of one that asks for `exit`. Guests are made
with texts of configurations that agree on everything else. -/
inductive Twin : Step → Step → Prop
  | create (m : Option Wasm.Module) (c : Config) {text text' : String}
      (trap : Config.ofText text = .ok (c.under .trap))
      (exit : Config.ofText text' = .ok (c.under .exit)) : Twin (.create m text) (.create m text')
  | unreadable (m : Option Wasm.Module) {text : String} (e : Config.Error)
      (unread : Config.ofText text = .error e) : Twin (.create m text) (.create m text)
  | same (q : Step) (other : ∀ m text, q ≠ .create m text) : Twin q q

theorem parting_create (s : Session) (m : Option Wasm.Module) (c : Config) {text text' : String}
    (trap : Config.ofText text = .ok (c.under .trap))
    (exit : Config.ofText text' = .ok (c.under .exit)) :
    Action.Parting (answerUnder under) (fun e x => x.1.Tells e) ((s.under .trap).create m text)
      ((s.under .exit).create m text') := by
  simp only [create, trap, exit]
  apply (Guest.parting_load m c).bind
  · intro made
    cases made with
    | error e => exact parting_append (fun _ => rfl) s none
    | ok g => exact parting_append (fun _ => rfl) s (some g)
  · intro e made failed
    obtain ⟨err, rfl, behind⟩ := failed
    refine ⟨(.guestError err, s ++ [none]), ?_, err, rfl, behind⟩
    exact congrArg (fun s => Action.done (Reply.guestError err, s)) (append_under .trap s none)

theorem parting_step (s : Session) {q q' : Step} (twin : Twin q q') :
    Action.Parting (answerUnder under) (fun e x => x.1.Tells e) ((s.under .trap).step q)
      ((s.under .exit).step q') := by
  cases twin with
  | create m c trap exit => exact parting_create s m c trap exit
  | unreadable m e unread =>
    simp only [step, create, unread]
    exact parting_append (fun _ => rfl) s none
  | same q other =>
    unfold step
    cases q with
    | create m text => exact absurd rfl (other m text)
    | call i name args =>
      apply parting_onGuest s i
      intro g
      apply (Guest.parting_call g name args).bind
      · intro x
        rcases x with ⟨result, g⟩
        have blind (p : FatalPolicy) : (callReply result).under p = callReply result := by
          cases result <;> rfl
        exact parting_answer blind g
      · intro e x failed
        rcases x with ⟨_, g⟩
        obtain ⟨err, rfl, behind⟩ := failed
        exact ⟨(.guestError err, g), rfl, err, rfl, behind⟩
    | hasExport i name => exact parting_onGuest s i fun g => .done (Reply.flag _, g)
    | memory i q =>
      apply parting_onMemory s i
      intro m p
      exact congrArg Prod.fst (q.serve_under p m.toMemory)
    | pages i => exact parting_onMemory s i fun _ _ => rfl
    | grow i delta =>
      apply parting_onMemory s i
      intro m p
      cases m.grow delta <;> rfl
    | host i q =>
      apply parting_onGuest s i
      intro g
      apply (parting_host g.store.host q).bind
      · intro x
        exact .done (x.1, { g with store := { g.store with host := x.2 } })
      · intro e x impossible
        exact impossible.elim

def answeredUnder (p : FatalPolicy) (x : Reply × Trace) : Reply × Trace := (x.1.under p, x.2)

def Transcript.cons (x : Reply × Trace) (T : Transcript) : Transcript :=
  { T with replies := x :: T.replies }

/-- Both sessions went alike to the end, and no fatal error came up. -/
def Transcript.Alike (T X : Transcript) : Prop :=
  ∃ (answers : List (Reply × Trace)) (s : Session), (∀ x ∈ answers, x.2.Calm) ∧
    T = ⟨answers.map (answeredUnder .trap), .value (s.under .trap), []⟩ ∧
    X = ⟨answers.map (answeredUnder .exit), .value (s.under .exit), []⟩

/-- Both sessions went alike up to a step with a fatal error. There one got an error with the fatal
one behind it, and went on. In the other the process was over as soon as it had offered its last
words. -/
def Transcript.Parted (T X : Transcript) : Prop :=
  ∃ (before after : List (Reply × Trace)) (e : HostError) (err : GuestError) (u : Trace)
    (taken : Bool) (s : Session), e.isFatal = true ∧ err.hostError? = some e ∧
    (∀ x ∈ before, x.2.Calm) ∧ u.Calm ∧
    T = ⟨before.map (answeredUnder .trap) ++ (.guestError err, u ++ [.report e]) :: after,
      .value (s.under .trap), []⟩ ∧
    X = ⟨before.map (answeredUnder .exit), .exited fatalStatus,
      u ++ [.report e, .lastWords e taken]⟩

variable {T X : Transcript} {r : Reply} {u : Trace}

theorem Transcript.Alike.cons (alike : T.Alike X) (calm : u.Calm) :
    (T.cons (r.under .trap, u)).Alike (X.cons (r.under .exit, u)) := by
  obtain ⟨answers, s, calms, rfl, rfl⟩ := alike
  exact ⟨(r, u) :: answers, s, List.forall_mem_cons.mpr ⟨calm, calms⟩, rfl, rfl⟩

theorem Transcript.Alike.status (alike : T.Alike X) : X.status = 0 := by
  obtain ⟨_, _, _, _, rfl⟩ := alike
  rfl

theorem Transcript.Parted.cons (parted : T.Parted X) (calm : u.Calm) :
    (T.cons (r.under .trap, u)).Parted (X.cons (r.under .exit, u)) := by
  obtain ⟨before, after, e, err, v, taken, s, isFatal, behind, calms, calm', rfl, rfl⟩ := parted
  exact ⟨(r, u) :: before, after, e, err, v, taken, s, isFatal, behind,
    List.forall_mem_cons.mpr ⟨calm, calms⟩, calm', rfl, rfl⟩

theorem play_answered {w : World} {s s' : Session} {t : Trace} {q : Step}
    (answered : (s.step q).run w t = (.value (r, s'), t ++ u)) (qs : List Step) :
    play w s t (q :: qs) = (play w s' (t ++ u) qs).cons (r, u) := by
  simp [play, answered, Transcript.cons]

theorem play_exited {w : World} {s : Session} {t : Trace} {q : Step} {status : Nat}
    (exited : (s.step q).run w t = (.exited status, t ++ u)) (qs : List Step) :
    play w s t (q :: qs) = ⟨[], .exited status, u⟩ := by
  simp [play, exited]

theorem play_trap (w : World) (s : Session) (t : Trace) {qs qs' : List Step}
    (twins : List.Forall₂ Twin qs qs') :
    ∃ (answers : List (Reply × Trace)) (s' : Session), answers.length = qs.length ∧
      play w (s.under .trap) t qs = ⟨answers, .value (s'.under .trap), []⟩ := by
  induction twins generalizing s t with
  | nil => exact ⟨[], s, rfl, rfl⟩
  | cons twin _ ih =>
    obtain ⟨r, s', u, left⟩ : ∃ r s' u, ((s.under .trap).step _).run w t =
        (.value (answerUnder under .trap (r, s')), t ++ u) := by
      rcases (parting_step s twin).run w t with ⟨⟨r, s'⟩, u, _, left, _⟩ |
        ⟨e, ⟨r, s'⟩, u, _, _, _, _, left, _⟩
      · exact ⟨r, s', u, left⟩
      · exact ⟨r, s', _, left⟩
    obtain ⟨answers, s'', length, rest⟩ := ih s' (t ++ u)
    refine ⟨(r.under .trap, u) :: answers, s'', by simp [length], ?_⟩
    rw [play_answered left, rest]
    rfl

/-- Two sessions that differ in the fatal policy alone go alike up to the first fatal error. -/
theorem play_policies (w : World) (s : Session) (t : Trace) {qs qs' : List Step}
    (twins : List.Forall₂ Twin qs qs') :
    (play w (s.under .trap) t qs).replies.length = qs.length ∧
      ((play w (s.under .trap) t qs).Alike (play w (s.under .exit) t qs') ∨
        (play w (s.under .trap) t qs).Parted (play w (s.under .exit) t qs')) := by
  constructor
  -- Once the sessions have parted one of them goes on alone, so that it is answered to the end is not
  -- part of the induction.
  · obtain ⟨answers, s', length, played⟩ := play_trap w s t twins
    rw [played]
    exact length
  · induction twins generalizing s t with
    | nil => exact .inl ⟨[], s, by simp, rfl, rfl⟩
    | cons twin twins ih =>
      rcases (parting_step s twin).run w t with ⟨⟨r, s'⟩, u, calm, left, right⟩ |
        ⟨e, ⟨_, s'⟩, u, taken, isFatal, ⟨err, rfl, behind⟩, calm, left, right⟩
      · rw [play_answered left, play_answered right]
        exact (ih s' (t ++ u)).imp (·.cons calm) (·.cons calm)
      · obtain ⟨after, s'', _, rest⟩ := play_trap w s' (t ++ (u ++ [.report e])) twins
        rw [play_answered left, play_exited right]
        refine .inr ⟨[], after, e, err, u, taken, s'', isFatal, behind, by simp, calm, ?_, rfl⟩
        rw [rest]
        rfl

def abortingGuest : Guest where
  image :=
    { code := [.host ⟨[], []⟩ (.primitive .abort), .guest (.forward ⟨[], []⟩ 0)]
      exports := [⟨"run", .func, 1⟩]
      maxDepth := 2 }
  store := { host := { config := .default, origin := 0 } }

theorem play_policies_aborting :
    (play Surroundings.still.world (under .trap [some abortingGuest]) []
      [.create none "\x7b\"fatal\":\"trap\"\x7d", .call 0 "run" []]).Parted
    (play Surroundings.still.world (under .exit [some abortingGuest]) []
      [.create none "\x7b\x7d", .call 0 "run" []]) := by
  have twins : List.Forall₂ Twin
      [.create none "\x7b\"fatal\":\"trap\"\x7d", .call 0 "run" []]
      [.create none "\x7b\x7d", .call 0 "run" []] := by
    refine .cons (.create none .default ?_ ?_) (.cons (.same _ ?_) .nil)
    · decide
    · decide
    · intro m text created
      cases created
  have ended : (play Surroundings.still.world (under .exit [some abortingGuest]) []
      [.create none "\x7b\x7d", .call 0 "run" []]).status = 1 := by decide
  rcases (play_policies _ [some abortingGuest] [] twins).2 with alike | parted
  · rw [alike.status] at ended
    cases ended
  · exact parted

end Session

end GuestHost
