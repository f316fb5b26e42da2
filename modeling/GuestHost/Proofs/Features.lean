import GuestHost.Proofs.FatalPolicy
import GuestHost.Proofs.IndirectCall
import GuestHost.Proofs.Linked

/-!
Features of a configuration. Only calls that would be fatal without a feature find out that it is
there, and a module that was linked without it has no import of it. Main statement: sessions that
differ in features alone go alike, if without them all guests could be made and no fatal error came
up.
-/

namespace GuestHost

variable {α β : Type}

def Config.enable (on : Feature → Bool) (c : Config) : Config :=
  { c with
    heapGrowth := c.heapGrowth || on .heapGrowth
    indirectCalls := if on .indirectCalls then .resolve else c.indirectCalls
    wasi := c.wasi || on .wasi }

theorem Config.has_enable (on : Feature → Bool) (c : Config) (f : Feature) :
    (c.enable on).has f = (c.has f || on f) := by
  cases f with
  | heapGrowth => rfl
  | indirectCalls => cases on_indirect : on .indirectCalls <;> simp [enable, has, on_indirect]
  | wasi => rfl

def HostState.enable (on : Feature → Bool) (h : HostState) : HostState :=
  { h with config := h.config.enable on }

def Store.enable (on : Feature → Bool) (s : Store) : Store := { s with host := s.host.enable on }

theorem Store.agree_enable (on : Feature → Bool) (s : Store) : s.Agree (s.enable on) :=
  ⟨rfl, ⟨rfl, rfl, rfl⟩⟩

def Stage.isMaking : Stage → Bool
  | load | link | imports | instantiate | setup => true
  | getFunc | args | call | results => false

theorem Trace.unlogged_append (t u : Trace) : (t ++ u).unlogged = t.unlogged ++ u.unlogged :=
  List.filter_append ..

theorem Trace.unlogged_cons (x : Exchange) (t : Trace) :
    Trace.unlogged (x :: t) = Trace.unlogged [x] ++ t.unlogged := Trace.unlogged_append [x] t

namespace Action

variable {view : α → α} {view' : β → β} {Lost : α → Prop} {Lost' : β → Prop}

/-- The right run does what the left one does, as far as that one comes without a fatal error. `view`
shows a value of the left run as it is on the right, and `Lost` tells the values with which the left
run may end in another way than the right one. Records of the log need not have the same text. -/
inductive Conserves (view : α → α) (Lost : α → Prop) : Action α → Action α → Prop
  | done (a : α) : Conserves view Lost (.done a) (.done (view a))
  | lost (a : α) (y : Action α) (isLost : Lost a) : Conserves view Lost (.done a) y
  | ask (q : Request) {k l : q.Answer → Action α} (other : q.isReport = false)
      (next : ∀ answer, Conserves view Lost (k answer) (l answer)) :
      Conserves view Lost (.ask q k) (.ask q l)
  | told (r r' : Log.Record) {k l : Unit → Action α} (other : (Request.log r).isReport = false)
      (next : Conserves view Lost (k ()) (l ())) :
      Conserves view Lost (.ask (.log r) k) (.ask (.log r') l)
  | fatal (e : HostError) (k : Unit → Action α) (y : Action α) :
      Conserves view Lost (.ask (.log (fatalRecord e)) k) y

theorem Conserves.bind {x y : Action α} {f g : α → Action β} (h : Conserves view Lost x y)
    (next : ∀ a, Conserves view' Lost' (f a) (g (view a)))
    (stops : ∀ a, Lost a → ∃ b, f a = .done b ∧ Lost' b) :
    Conserves view' Lost' (x.bind f) (y.bind g) := by
  induction h with
  | done a => exact next a
  | lost a y isLost =>
    obtain ⟨b, stopped, isLost⟩ := stops a isLost
    rw [done_bind, stopped]
    exact .lost b _ isLost
  | ask q other _ ih => exact .ask q other ih
  | told r r' other _ ih => exact .told r r' other ih
  | fatal e k y => exact .fatal e _ _

/-- After pasts that differ in the log alone, in a world that does not listen to it, the runs exchange
the same and end in the same value; or the left one has reported a fatal error, or is lost. -/
def GoAlike (view : α → α) (Lost : α → Prop) (w : World) (t t' : Trace) (x y : Action α) : Prop :=
  (∃ (a : α) (u u' : Trace), u.unlogged = u'.unlogged ∧ x.run w.deaf t = (.value a, t ++ u) ∧
    y.run w.deaf t' = (.value (view a), t' ++ u')) ∨
  (∃ (ending : Ending α) (u : Trace), ¬ u.Calm ∧ x.run w.deaf t = (ending, t ++ u)) ∨
  ∃ (a : α) (u : Trace), Lost a ∧ x.run w.deaf t = (.value a, t ++ u)

theorem GoAlike.ask {w : World} {t t' : Trace} {q q' : Request} {k : q.Answer → Action α}
    {l : q'.Answer → Action α}
    (heard : Trace.unlogged [⟨q, w.deaf t q⟩] = Trace.unlogged [⟨q', w.deaf t' q'⟩])
    (rest : GoAlike view Lost w (t ++ [⟨q, w.deaf t q⟩]) (t' ++ [⟨q', w.deaf t' q'⟩])
      (k (w.deaf t q)) (l (w.deaf t' q'))) :
    GoAlike view Lost w t t' (.ask q k) (.ask q' l) := by
  rcases rest with ⟨a, u, u', alike, left, right⟩ | ⟨ending, u, loud, left⟩ | ⟨a, u, isLost, left⟩
  · refine .inl ⟨a, ⟨q, w.deaf t q⟩ :: u, ⟨q', w.deaf t' q'⟩ :: u', ?_, ?_, ?_⟩
    · rw [Trace.unlogged_cons, heard, alike, ← Trace.unlogged_cons]
    · simpa [Action.run] using left
    · simpa [Action.run] using right
  · refine .inr (.inl ⟨ending, ⟨q, w.deaf t q⟩ :: u, fun calm => loud ?_, ?_⟩)
    · exact (List.forall_mem_cons.mp calm).2
    · simpa [Action.run] using left
  · refine .inr (.inr ⟨a, ⟨q, w.deaf t q⟩ :: u, isLost, ?_⟩)
    simpa [Action.run] using left

theorem Conserves.run {x y : Action α} (h : Conserves view Lost x y) (w : World) {t t' : Trace}
    (same : t.unlogged = t'.unlogged) : GoAlike view Lost w t t' x y := by
  induction h generalizing t t' with
  | done a => exact .inl ⟨a, [], [], rfl, by simp [Action.run], by simp [Action.run]⟩
  | lost a y isLost => exact .inr (.inr ⟨a, [], isLost, by simp [Action.run]⟩)
  | ask q other _ ih =>
    have answer : w.deaf t q = w.deaf t' q := congrArg (w · q) same
    refine .ask (by rw [answer]) ?_
    rw [← answer]
    apply ih
    rw [Trace.unlogged_append, Trace.unlogged_append, same]
  | told r r' other _ ih =>
    refine .ask rfl (ih ?_)
    rw [Trace.unlogged_append, Trace.unlogged_append, same]
    rfl
  | fatal e k y =>
    have now : w.deaf.SameAfter (t ++ [.report e]) (t ++ [.report e]) := fun _ _ => rfl
    obtain ⟨ending, u, left, -⟩ := run_shift (k ()) now
    refine .inr (.inl ⟨ending, .report e :: u, fun calm => ?_, ?_⟩)
    · cases calm (.report e) List.mem_cons_self
    · simpa [Action.run, Exchange.report] using left

end Action

namespace Run

def outcomeEnabled (on : Feature → Bool) (x : Except Stop α × Store) : Except Stop α × Store :=
  (x.1, x.2.enable on)

/-- Runs from a store without features and with them. Nothing is lost between the two. -/
def Conserves (on : Feature → Bool) (α : Type) (x y : Run α) : Prop :=
  ∀ s : Store, Action.Conserves (outcomeEnabled on) (fun _ => False) (x.startAt s)
    (y.startAt (s.enable on))

variable {on : Feature → Bool}

theorem Conserves.bind {x y : Run α} {f g : α → Run β} (h : Conserves on α x y)
    (next : ∀ a, Conserves on β (f a) (g a)) : Conserves on β (x >>= f) (y >>= g) := by
  intro s
  rw [startAt_bind, startAt_bind]
  apply (h s).bind
  · intro x
    rcases x with ⟨stop | a, s'⟩
    · exact .done (Except.error stop, s')
    · exact next a s'
  · intro x impossible
    exact impossible.elim

theorem conserves_ask (q : Request) (other : q.isReport = false) :
    Conserves on q.Answer (Run.ask q) (Run.ask q) := by
  intro s
  rw [startAt_ask, startAt_ask]
  exact .ask q other fun answer => .done (Except.ok answer, s)

theorem conserves_fatal (e : HostError) (y : Run α) : Conserves on α (Run.fatal e) y := by
  intro s
  rw [startAt_fatal]
  exact .fatal e _ _

theorem conserves_needing (f : Feature) (call : String) {x y : Run α} (h : Conserves on α x y) :
    Conserves on α (Run.needing f call x) (Run.needing f call y) := by
  intro s
  by_cases has : s.host.config.has f = true
  · have has' : (s.enable on).host.config.has f = true := by
      have more := s.host.config.has_enable on f
      rwa [has, Bool.true_or] at more
    rw [startAt_needing, startAt_needing, if_pos has, if_pos has']
    exact h s
  · rw [startAt_needing, if_neg has]
    exact conserves_fatal (.unsupported call) _ s

theorem codeConserves (on : Feature → Bool) : CodeCongruence (Conserves on) where
  pure a s := .done (Except.ok a, s)
  bind h next := h.bind next
  fault f _ s := .done (Except.error (Stop.fault f), s)
  store same s := same _ _ (s.agree_enable on) s
  modify f same s := by
    change Action.Conserves _ _ (.done (Except.ok (), f { s with host := s.host }))
      (.done (Except.ok (), f { s with host := s.host.enable on }))
    rw [same s s.host, same s (s.host.enable on)]
    exact .done (Except.ok (), { f s with host := s.host })

theorem conserves_deliver (stream : OutputStream) (chunks : List (List UInt8)) :
    Conserves on Bool (WasiCall.deliver stream chunks) (WasiCall.deliver stream chunks) := by
  intro s
  rw [WasiCall.startAt_deliver, WasiCall.startAt_deliver]
  change Action.Conserves _ _ (if s.host.config.captureOutput then _ else _)
    (if s.host.config.captureOutput then _ else _)
  split
  · have kept : Action.Conserves (outcomeEnabled on) (fun _ => False) _ _ :=
      .done (Except.ok true, { s with host := s.host.capture stream chunks.flatten })
    cases stream <;> exact kept
  · have offered (bytes : List UInt8) := @conserves_ask on (.offer stream bytes) rfl
    exact (codeConserves on).sendAll stream offered chunks s

/-- Everything that guests and host functions do goes alike with more features, up to the first fatal
error. -/
theorem conserves (on : Feature → Bool) :
    Congruence (fun e => e.isFatal = true) (Conserves on) where
  toCodeCongruence := codeConserves on
  fail e _ s := .done (Except.error (Stop.host e), s)
  fatal e _ := conserves_fatal e _
  needing f call _ _ _ h := conserves_needing f call h
  ask q plain _ := conserves_ask q (Request.isReport_of_isGrave plain)
  deliver := conserves_deliver
  stage r s := .done (Except.ok (), { s with host := { s.host with staging := r } })
  record notice s := .done (Except.ok (), { s with host := s.host.recordGrowth notice })

end Run

namespace Guest

open Wasm (Module)

def enable (on : Feature → Bool) (g : Guest) : Guest := { g with store := g.store.enable on }

def outcomeEnabled (on : Feature → Bool) (x : Except GuestError (List (BitVec 64)) × Guest) :
    Except GuestError (List (BitVec 64)) × Guest := (x.1, x.2.enable on)

def madeEnabled (on : Feature → Bool) (x : Except GuestError Guest) : Except GuestError Guest :=
  x.map (enable on)

def Unmade (x : Except GuestError Guest) : Prop := ∃ err, x = .error err ∧ err.stage.isMaking = true

variable (on : Feature → Bool)

theorem conserves_call (g : Guest) (name : String) (args : List (BitVec 64)) :
    Action.Conserves (outcomeEnabled on) (fun _ => False) (g.call name args)
      ((g.enable on).call name args) := by
  have prepared : (g.enable on).prepare name args = g.prepare name args := rfl
  rw [call_eq, call_eq, prepared]
  cases run : g.prepare name args with
  | error e => exact .done (Except.error e, g)
  | ok run' =>
    have typed := types_of_prepare run
    apply Action.Conserves.bind
      ((Run.conserves on).call g.image.raises_fatal .embedder _ _ typed g.store)
    · intro x
      exact .done (outcome x.1, { g with store := x.2 })
    · intro x impossible
      exact impossible.elim

theorem conserves_runSetup (g : Guest) :
    Action.Conserves (madeEnabled on) Unmade (runSetup g) (runSetup (g.enable on)) := by
  have has : (g.enable on).hasExport setupExport = g.hasExport setupExport := rfl
  rw [runSetup_eq, runSetup_eq, has]
  split
  · apply Action.Conserves.ask _ rfl
    intro _
    apply (conserves_call on g setupExport []).bind
    · intro x
      rcases x with ⟨e | words, g⟩
      · exact .done (Except.error { e with stage := .setup })
      · exact .done (Except.ok g)
    · intro x impossible
      exact impossible.elim
  · exact .done (Except.ok g)

theorem conserves_bringUp (m : Module) (image : Image) (c : Config) :
    Action.Conserves (madeEnabled on) Unmade (bringUp m image c)
      (bringUp m image (c.enable on)) := by
  apply Action.Conserves.ask _ rfl
  intro origin
  rw [Action.done_bind, Action.done_bind]
  apply Action.Conserves.bind ((Run.conserves on).startUp m image.raises_fatal (freshStore m c origin))
  · intro x
    rcases x with ⟨stop | _, store⟩
    · exact .done (Except.error (GuestError.mk .instantiate (.stopped stop)))
    · exact .ask _ rfl fun _ => conserves_runSetup on ⟨image, store⟩
  · intro x impossible
    exact impossible.elim

theorem registrar_extends (c : Config) :
    (registrar c).1.linker.Extends (registrar (c.enable on)).1.linker := by
  rw [registrar_eq, registrar_eq, Config.enable]
  cases c.wasi with
  | true => exact .refl _
  | false =>
    cases on .wasi with
    | true =>
      refine ⟨(Registration.ofSet id (WasiCall.all.map .wasi)).map (·.definition), ?_⟩
      simp [Registrar.withAll, HostFunction.registrations_true]
    | false => exact .refl _

/-- A module that could be linked without features is linked alike with them. -/
theorem link_enable {m : Module} {c : Config} {image : Image}
    (linked : Image.link m (registrar c).1.linker = .ok image) :
    (registrar (c.enable on)).1.checkImports m.imports = .ok () ∧
      Image.link m (registrar (c.enable on)).1.linker = .ok image := by
  obtain ⟨ds, found, rfl⟩ := Image.link_eq_ok_iff.mp linked
  have found' : List.Forall₂ (Image.Imports (registrar (c.enable on)).1.linker) m.imports ds :=
    found.imp fun i d here => And.imp_left (registrar_extends on c).find? here
  have linked' := Image.link_eq_ok_iff.mpr ⟨ds, found', rfl⟩
  exact ⟨checkImports_of_link linked', linked'⟩

theorem conserves_instantiate (m : Module) (c : Config) :
    Action.Conserves (madeEnabled on) Unmade (instantiate m c) (instantiate m (c.enable on)) := by
  rw [instantiate_eq, instantiate_eq, registrar_ok c, registrar_ok (c.enable on)]
  split
  · exact .done (Except.error _)
  · apply Action.Conserves.told _ _ rfl
    rw [Action.done_bind, Action.done_bind]
    cases checked : (registrar c).1.checkImports m.imports with
    | error e => exact .lost _ _ ⟨_, rfl, rfl⟩
    | ok =>
      cases linked : Image.link m (registrar c).1.linker with
      | error f => exact .lost _ _ ⟨_, rfl, rfl⟩
      | ok image =>
        obtain ⟨checked', linked'⟩ := link_enable on linked
        rw [checked', linked']
        exact conserves_bringUp on m image c

theorem conserves_load (m : Option Module) (c : Config) :
    Action.Conserves (madeEnabled on) Unmade (load m c) (load m (c.enable on)) := by
  cases m with
  | none => exact .done (Except.error _)
  | some m => exact conserves_instantiate on m c

end Guest

def Reply.enable (on : Feature → Bool) : Reply → Reply
  | config c => config (c.enable on)
  | r => r

def Reply.tellsUnmade : Reply → Bool
  | guestError e => e.stage.isMaking
  | _ => false

theorem Reply.enable_of_blind (on : Feature → Bool) {r : Reply} (blind : ∀ p, r.under p = r) :
    r.enable on = r := by
  cases r with
  | config c =>
    have trap := congrArg Config.fatal (Reply.config.inj (blind .trap))
    have exit := congrArg Config.fatal (Reply.config.inj (blind .exit))
    cases trap.trans exit.symm
  | _ => rfl

namespace Session

def enable (on : Feature → Bool) (s : Session) : Session := s.map (Option.map (Guest.enable on))

def answerEnabled {γ : Type} (view : γ → γ) (on : Feature → Bool) (x : Reply × γ) : Reply × γ :=
  (x.1.enable on, view x.2)

def AnsweredUnmade {γ : Type} (x : Reply × γ) : Prop := x.1.tellsUnmade = true

variable {on : Feature → Bool}

theorem conserves_answer {γ : Type} {view : γ → γ} {r : Reply} (plain : r.enable on = r) (a : γ) :
    Action.Conserves (answerEnabled view on) AnsweredUnmade (.done (r, a)) (.done (r, view a)) := by
  have answered : Action.Conserves (answerEnabled view on) AnsweredUnmade _ _ := .done (r, a)
  rwa [answerEnabled, plain] at answered

theorem conserves_append {r : Reply} (plain : r.enable on = r) (s : Session) (g : Option Guest) :
    Action.Conserves (answerEnabled (enable on) on) AnsweredUnmade (.done (r, s ++ [g]))
      (.done (r, s.enable on ++ [g.map (Guest.enable on)])) := by
  have appended : s.enable on ++ [g.map (Guest.enable on)] = enable on (s ++ [g]) := by
    simp [enable]
  rw [appended]
  exact conserves_answer plain (s ++ [g])

theorem conserves_onGuest (s : Session) (i : Nat) {f : Guest → Action (Reply × Guest)}
    (alike : ∀ g : Guest, Action.Conserves (answerEnabled (Guest.enable on) on)
      (fun _ => False) (f g) (f (g.enable on))) :
    Action.Conserves (answerEnabled (enable on) on) AnsweredUnmade (s.onGuest i f)
      ((s.enable on).onGuest i f) := by
  unfold onGuest
  rw [enable, guest?_map]
  cases s.guest? i with
  | none => exact .done (Reply.noGuest, s)
  | some g =>
    apply (alike g).bind
    · intro x
      rcases x with ⟨reply, g⟩
      dsimp only [answerEnabled]
      rw [set_map]
      exact .done (reply, s.set i (some g))
    · intro x impossible
      exact impossible.elim

theorem conserves_onMemory (s : Session) (i : Nat) {f : LinearMemory → Reply × LinearMemory}
    (plain : ∀ m, (f m).1.enable on = (f m).1) :
    Action.Conserves (answerEnabled (enable on) on) AnsweredUnmade (s.onMemory i f)
      ((s.enable on).onMemory i f) := by
  apply conserves_onGuest s i
  intro g
  have seen : (g.enable on).memory? = g.memory? := rfl
  rw [seen]
  split
  · exact .done (Reply.noMemory, g)
  · rename_i m _
    have answered : Action.Conserves (answerEnabled (Guest.enable on) on) (fun _ => False) _ _ :=
      .done ((f m).1, g.setMemory (f m).2)
    rwa [answerEnabled, plain] at answered

theorem conserves_host (h : HostState) (q : HostRequest) :
    Action.Conserves (answerEnabled (HostState.enable on) on) (fun _ => False) (q.serve h)
      (q.serve (h.enable on)) := by
  cases q with
  | staging q =>
    have answered : Action.Conserves (answerEnabled (HostState.enable on) on) (fun _ => False) _ _ :=
      .done ((q.serve h.staging).1, { h with staging := (q.serve h.staging).2 })
    cases q <;> exact answered
  | describeStaging => exact .done (Reply.text _, h)
  | record notice => exact .done (Reply.nothing, h.recordGrowth notice)
  | notices => exact .done (Reply.notices _, h)
  | output stream => cases stream <;> exact .done (Reply.bytes _, h)
  | push stream bytes =>
    cases stream with
    | stdout => exact .done (Reply.nothing, h.capture .stdout bytes)
    | stderr => exact .done (Reply.nothing, h.capture .stderr bytes)
  | takeOutput => exact .done (Reply.outputs _ _, { h with stdout := [], stderr := [] })
  | config => exact .done (Reply.config h.config, h)
  | monotonic => exact .ask _ rfl fun _ => .ask _ rfl fun _ => .done (Reply.flag _, h)

/-- One step of an embedder, and of one that makes its guests with more features. -/
inductive Richer (on : Feature → Bool) : Step → Step → Prop
  | create (m : Option Wasm.Module) (c : Config) {text text' : String}
      (plain : Config.ofText text = .ok c) (rich : Config.ofText text' = .ok (c.enable on)) :
      Richer on (.create m text) (.create m text')
  | unreadable (m : Option Wasm.Module) {text : String} (e : Config.Error)
      (unread : Config.ofText text = .error e) : Richer on (.create m text) (.create m text)
  | same (q : Step) (other : ∀ m text, q ≠ .create m text) : Richer on q q

theorem conserves_create (s : Session) (m : Option Wasm.Module) (c : Config) {text text' : String}
    (plain : Config.ofText text = .ok c) (rich : Config.ofText text' = .ok (c.enable on)) :
    Action.Conserves (answerEnabled (enable on) on) AnsweredUnmade (s.create m text)
      ((s.enable on).create m text') := by
  simp only [create, plain, rich]
  apply (Guest.conserves_load on m c).bind
  · intro made
    cases made with
    | error e => exact conserves_append rfl s none
    | ok g => exact conserves_append rfl s (some g)
  · intro made unmade
    obtain ⟨err, rfl, making⟩ := unmade
    exact ⟨(.guestError err, s ++ [none]), rfl, making⟩

theorem conserves_step (s : Session) {q q' : Step} (richer : Richer on q q') :
    Action.Conserves (answerEnabled (enable on) on) AnsweredUnmade (s.step q)
      ((s.enable on).step q') := by
  cases richer with
  | create m c plain rich => exact conserves_create s m c plain rich
  | unreadable m e unread =>
    simp only [step, create, unread]
    exact conserves_append rfl s none
  | same q other =>
    unfold step
    cases q with
    | create m text => exact absurd rfl (other m text)
    | call i name args =>
      apply conserves_onGuest s i
      intro g
      apply (Guest.conserves_call on g name args).bind
      · intro x
        rcases x with ⟨result, g⟩
        have plain : (callReply result).enable on = callReply result := by
          cases result <;> rfl
        have answered : Action.Conserves (answerEnabled (Guest.enable on) on) (fun _ => False) _ _ :=
          .done (callReply result, g)
        rwa [answerEnabled, plain] at answered
      · intro x impossible
        exact impossible.elim
    | hasExport i name => exact conserves_onGuest s i fun g => .done (Reply.flag _, g)
    | memory i q =>
      apply conserves_onMemory s i
      intro m
      exact Reply.enable_of_blind on fun p => congrArg Prod.fst (q.serve_under p m.toMemory)
    | pages i => exact conserves_onMemory s i fun _ => rfl
    | grow i delta =>
      apply conserves_onMemory s i
      intro m
      cases m.grow delta <;> rfl
    | host i q =>
      apply conserves_onGuest s i
      intro g
      apply (conserves_host g.store.host q).bind
      · intro x
        exact .done (x.1, { g with store := { g.store with host := x.2 } })
      · intro x impossible
        exact impossible.elim

/-- The same reply but for the features of a configuration, after the same exchanges but for those
with the log. -/
def AnsweredAlike (on : Feature → Bool) (x x' : Reply × Trace) : Prop :=
  x'.1 = x.1.enable on ∧ x.2.unlogged = x'.2.unlogged

/-- Both sessions went alike to the end, where the guests differ in the features of their
configurations alone. -/
structure Transcript.Conserved (on : Feature → Bool) (T X : Transcript) : Prop where
  replies : List.Forall₂ (AnsweredAlike on) T.replies X.replies
  ended : ∃ s : Session, T.ending = .value s ∧ X.ending = .value (s.enable on)

theorem Transcript.Conserved.cons {T X : Transcript} {x x' : Reply × Trace}
    (alike : AnsweredAlike on x x') (rest : T.Conserved on X) :
    (T.cons x).Conserved on (X.cons x') :=
  ⟨.cons alike rest.replies, rest.ended⟩

theorem Transcript.trace_cons (r : Reply) (u : Trace) (T : Transcript) :
    (T.cons (r, u)).trace = u ++ T.trace := by
  simp [trace, cons]

/-- Two sessions take the same steps in one world that does not listen to the log, and the guests of
one have more features. Without those all guests could be made, and no fatal error came up. Then all
steps are answered alike, failed calls among them, and in the end the guests are the same but for
the features of their configurations. The steps are any, so this holds after each of them. -/
theorem play_enabled (on : Feature → Bool) (w : World) (s : Session) (t t' : Trace)
    (same : t.unlogged = t'.unlogged) {qs qs' : List Step}
    (richer : List.Forall₂ (Richer on) qs qs')
    (made : ∀ x ∈ (play w.deaf s t qs).replies, x.1.tellsUnmade = false)
    (calm : (play w.deaf s t qs).trace.Calm) :
    (play w.deaf s t qs).replies.length = qs.length ∧
      (play w.deaf s t qs).Conserved on (play w.deaf (s.enable on) t' qs') := by
  induction richer generalizing s t t' with
  | nil => exact ⟨rfl, .nil, s, rfl, rfl⟩
  | cons first _ ih =>
    rcases (conserves_step s first).run w same with ⟨⟨r, s'⟩, u, u', alike, left, right⟩ |
      ⟨ending, u, loud, left⟩ | ⟨⟨r, s'⟩, u, unmade, left⟩
    · rw [play_answered left] at made calm ⊢
      rw [play_answered right]
      have later : Trace.unlogged (t ++ u) = Trace.unlogged (t' ++ u') := by
        rw [Trace.unlogged_append, Trace.unlogged_append, same, alike]
      obtain ⟨length, rest⟩ := ih s' (t ++ u) (t' ++ u') later
        (fun x member => made x (List.mem_cons_of_mem _ member))
        (fun x member => calm x (by simp [Transcript.trace_cons, member]))
      exact ⟨congrArg (· + 1) length, .cons ⟨rfl, alike⟩ rest⟩
    -- The sessions would part only here, where what was assumed of the first one fails.
    · refine absurd (fun x member => calm x ?_) loud
      rcases ending with ⟨r, s'⟩ | status
      · rw [play_answered left]
        simp [Transcript.trace_cons, member]
      · rw [play_exited left]
        simpa [Transcript.trace] using member
    · rw [play_answered left] at made
      have clear := made (r, u) List.mem_cons_self
      cases unmade.symm.trans clear

def invokingModule : Wasm.Module where
  imports := [⟨"env", "setTempRet0", .func ⟨[.i32], []⟩⟩, ⟨"env", "getTempRet0", .func ⟨[], [.i32]⟩⟩,
    ⟨"env", "invoke_vi", .func ⟨[.i32, .i32], []⟩⟩,
    ⟨"env", "emscripten_resize_heap", .func ⟨[.i32], [.i32]⟩⟩]
  funcs := [{
    type := ⟨[.i32], [.i32]⟩
    body := fun args => do
      let _ ← Wasm.Body.callFunc 2 (.i32 0 :: args)
      Wasm.Body.callFunc 1 [] }]
  memory := some ⟨1, none⟩
  table := some ⟨1, none⟩
  exports := [⟨"memory", .memory, 0⟩, ⟨"__indirect_function_table", .table, 0⟩, ⟨"run", .func, 4⟩,
    ⟨"grow", .func, 3⟩]
  elems := [⟨0, [some 0]⟩]
  maxDepth := 10

def invokingSteps (config : String) : List Step :=
  [.create (some invokingModule) config, .call 0 "run" [7], .call 0 "run" [], .pages 0,
    .host 0 .config]

def invokingConfig : Config := { fatal := .trap, indirectCalls := .resolve, wasi := false }

/-- Growth of the heap and the other namespace come on. The guest goes through its table in both
sessions. -/
theorem play_enabled_invoking :
    let plain := "\x7b\"fatal\":\"trap\",\"indirect_calls\":\"resolve\",\"wasi\":false\x7d"
    let rich := "\x7b\"fatal\":\"trap\",\"heap_growth\":true,\"indirect_calls\":\"resolve\"\x7d"
    let w := Surroundings.still.world.deaf
    (play w [] [] (invokingSteps plain)).replies.length = 5 ∧
      (play w [] [] (invokingSteps plain)).Conserved (fun _ => true)
        (play w [] [] (invokingSteps rich)) := by
  intro plain rich w
  have richer : List.Forall₂ (Richer fun _ => true) (invokingSteps plain) (invokingSteps rich) := by
    refine .cons (.create _ invokingConfig ?_ ?_)
      (.cons (.same _ nofun) (.cons (.same _ nofun) (.cons (.same _ nofun)
        (.cons (.same _ nofun) .nil))))
    · decide
    · decide
  have quiet : (∀ x ∈ (play w [] [] (invokingSteps plain)).replies, x.1.tellsUnmade = false) ∧
      ∀ x ∈ (play w [] [] (invokingSteps plain)).trace, x.request.isReport = false := by
    decide +kernel
  exact play_enabled (fun _ => true) Surroundings.still.world [] [] [] rfl richer quiet.1 quiet.2

end Session

end GuestHost
