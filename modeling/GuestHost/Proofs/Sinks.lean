import GuestHost.Proofs.FatalPolicy

/-!
The two sinks of a guest's output. It is kept in the host state, or it is sent on to the streams of
the process. Main statement: sessions that differ in the sink alone go alike, and what one of them
keeps is at every time what the other has sent.
-/

namespace GuestHost

variable {α β : Type}

inductive Sink
  | keep
  | send
  deriving DecidableEq, Repr

namespace Sink

def keeps : Sink → Bool
  | keep => true
  | send => false

def kept : Sink → List UInt8 → List UInt8
  | keep, bytes => bytes
  | send, _ => []

end Sink

/-- The same configuration with another sink. Fatal errors are handed back to the guest's caller. -/
def Config.into (k : Sink) (c : Config) : Config :=
  { c with fatal := .trap, captureOutput := k.keeps }

def HostState.into (k : Sink) (h : HostState) : HostState :=
  { h with config := h.config.into k, stdout := k.kept h.stdout, stderr := k.kept h.stderr }

def Store.into (k : Sink) (s : Store) : Store := { s with host := s.host.into k }

theorem Store.agree_into (k k' : Sink) (s : Store) : (s.into k).Agree (s.into k') :=
  ⟨rfl, ⟨rfl, rfl, rfl⟩⟩

abbrev Output := OutputStream → List UInt8

namespace Output

def nothing : Output := fun _ => []

def append (out out' : Output) : Output := fun stream => out stream ++ out' stream

def add (out : Output) (stream : OutputStream) (bytes : List UInt8) : Output :=
  fun s => if s = stream then out s ++ bytes else out s

theorem append_assoc (a b c : Output) : (a.append b).append c = a.append (b.append c) := by
  funext stream
  exact List.append_assoc ..

theorem append_nothing (out : Output) : out.append nothing = out := by
  funext stream
  exact List.append_nil _

theorem nothing_append (out : Output) : nothing.append out = out := by
  funext stream
  exact List.nil_append _

theorem add_append (out out' : Output) (stream : OutputStream) (bytes : List UInt8) :
    (out.add stream bytes).append out' = out.append ((nothing.add stream bytes).append out') := by
  funext s
  by_cases here : s = stream
  · simp [append, add, nothing, here]
  · simp [append, add, nothing, here]

end Output

theorem HostState.captured_capture (h : HostState) (stream : OutputStream) (bytes : List UInt8) :
    (h.capture stream bytes).captured = Output.add h.captured stream bytes := by
  funext s
  cases stream <;> cases s <;> rfl

namespace Trace

def unoffered (t : Trace) : Trace := t.filter (!·.request.isOffer)

theorem unoffered_append (t u : Trace) : (t ++ u).unoffered = t.unoffered ++ u.unoffered :=
  List.filter_append ..

theorem unoffered_ask {q : Request} (other : q.isOffer = false) (answer : q.Answer) (t : Trace) :
    unoffered (⟨q, answer⟩ :: t) = ⟨q, answer⟩ :: t.unoffered := by
  simp [unoffered, other]

theorem offered_unoffered (t : Trace) (stream : OutputStream) :
    t.unoffered.offered stream = [] := by
  induction t with
  | nil => rfl
  | cons x t ih =>
    rcases x with ⟨_ | _ | _ | _ | _ | _ | _, _⟩
    all_goals simpa [unoffered, offered, Request.isOffer] using ih

theorem readings_unoffered (t : Trace) (c : Clock) : t.unoffered.readings c = t.readings c := by
  induction t with
  | nil => rfl
  | cons x t ih =>
    rcases x with ⟨_ | _ | _ | _ | _ | _ | _, _⟩
    all_goals simpa [unoffered, readings, Request.isOffer, List.countP_cons] using ih

theorem drawn_unoffered (t : Trace) : t.unoffered.drawn = t.drawn := by
  induction t with
  | nil => rfl
  | cons x t ih =>
    rcases x with ⟨_ | _ | _ | _ | _ | _ | _, _⟩
    all_goals simpa [unoffered, drawn, Request.isOffer] using ih

theorem sent_nil : sent [] = Output.nothing := rfl

theorem sent_append (t u : Trace) : (t ++ u).sent = Output.append t.sent u.sent := by
  funext stream
  exact List.flatMap_append

theorem sent_ask {q : Request} (other : q.isOffer = false) (answer : q.Answer) (t : Trace) :
    sent (⟨q, answer⟩ :: t) = t.sent := by
  cases q with
  | offer => cases other
  | _ => rfl

theorem sent_offer (stream : OutputStream) (bytes : List UInt8) (t : Trace) :
    sent (⟨.offer stream bytes, true⟩ :: t) =
      (Output.nothing.add stream bytes).append t.sent := by
  funext s
  by_cases here : s = stream
  · simp [sent, Exchange.sent, Output.append, Output.add, Output.nothing, here]
  · simp [sent, Exchange.sent, Output.append, Output.add, Output.nothing, here, Ne.symm here]

end Trace

/-- The streams take every chunk, and nothing else depends on what they were offered. -/
structure World.Accepts (w : World) : Prop where
  takes (t : Trace) (stream : OutputStream) (bytes : List UInt8) :
    w t (.offer stream bytes) = true
  deaf (t : Trace) (q : Request) : q.isOffer = false → w t.unoffered q = w t q

theorem Surroundings.accepts_world (s : Surroundings)
    (takes : ∀ stream chunks bytes, s.takes stream chunks bytes = true) : s.world.Accepts where
  takes t stream bytes := takes ..
  deaf t q other := by
    cases q with
    | pid | log | readFile | loadModule => rfl
    | clock c => exact congrArg (s.clock c) (t.readings_unoffered c)
    | random count => simp only [Surroundings.world, Trace.drawn_unoffered]
    | offer => cases other

namespace Action

variable {view : Sink → α → α} {view' : Sink → β → β} {told : α → Output → Prop}
  {told' : β → Output → Prop} {out : Output}

/-- Runs of one computation with its output going to either sink, when `out` has gone there before.
`view` shows a value as it is with each sink, and `told` says what has gone there in the end. The
right run sends where the left one does nothing. -/
inductive Mirrors (view : Sink → α → α) (told : α → Output → Prop) :
    Output → Action α → Action α → Prop
  | done {out : Output} (a : α) (all : told a out) :
    Mirrors view told out (.done (view .keep a)) (.done (view .send a))
  | ask {out : Output} (q : Request) {k l : q.Answer → Action α} (other : q.isOffer = false)
    (next : ∀ answer, Mirrors view told out (k answer) (l answer)) :
    Mirrors view told out (.ask q k) (.ask q l)
  | send {out : Output} (stream : OutputStream) (bytes : List UInt8) {x : Action α}
    {l : Bool → Action α} (next : Mirrors view told (out.add stream bytes) x (l true)) :
    Mirrors view told out x (.ask (.offer stream bytes) l)

theorem Mirrors.bind {x y : Action α} {f g : α → Action β} (h : Mirrors view told out x y)
    (next : ∀ a out, told a out → Mirrors view' told' out (f (view .keep a)) (g (view .send a))) :
    Mirrors view' told' out (x.bind f) (y.bind g) := by
  induction h with
  | done a all => exact next a _ all
  | ask q other _ ih => exact .ask q other ih
  | send stream bytes _ ih => exact .send stream bytes ih

/-- In a world whose streams take everything both runs end, with the same value but for the sink,
and the exchanges of the left one are those of the right one without its offers. -/
theorem Mirrors.run {x y : Action α} (h : Mirrors view told out x y) {w : World}
    (accepts : w.Accepts) (t : Trace) :
    ∃ (a : α) (u : Trace), told a (out.append u.sent) ∧
      x.run w t.unoffered = (.value (view .keep a), t.unoffered ++ u.unoffered) ∧
      y.run w t = (.value (view .send a), t ++ u) := by
  induction h generalizing t with
  | done a all =>
    refine ⟨a, [], ?_, by simp [Action.run, Trace.unoffered], by simp [Action.run]⟩
    rwa [Trace.sent_nil, Output.append_nothing]
  | ask q other _ ih =>
    obtain ⟨a, u, all, left, right⟩ := ih (w t q) (t ++ [⟨q, w t q⟩])
    refine ⟨a, ⟨q, w t q⟩ :: u, ?_, ?_, ?_⟩
    · rwa [Trace.sent_ask other]
    · rw [Trace.unoffered_append, Trace.unoffered_ask other] at left
      rw [Action.run, accepts.deaf t q other, Trace.unoffered_ask other]
      simpa [Trace.unoffered] using left
    · simpa [Action.run] using right
  | send stream bytes _ ih =>
    obtain ⟨a, u, all, left, right⟩ := ih (t ++ [⟨.offer stream bytes, true⟩])
    refine ⟨a, ⟨.offer stream bytes, true⟩ :: u, ?_, ?_, ?_⟩
    · rwa [Trace.sent_offer, ← Output.add_append]
    · simpa [Trace.unoffered, Request.isOffer] using left
    · rw [Action.run, accepts.takes]
      simpa using right

end Action

namespace Run

def outcomeInto (k : Sink) (x : Except Stop α × Store) : Except Stop α × Store :=
  (x.1, x.2.into k)

def LeftWith (x : Except Stop α × Store) (out : Output) : Prop := x.2.host.captured = out

/-- Runs from a store that differs in the sink alone, when all output so far has gone there. -/
def Mirrors (α : Type) (x y : Run α) : Prop :=
  ∀ s : Store, Action.Mirrors outcomeInto LeftWith s.host.captured
    (x.startAt (s.into .keep)) (y.startAt (s.into .send))

theorem mirrors_sendAll (stream : OutputStream) (chunks : List (List UInt8)) (s : Store) :
    Action.Mirrors outcomeInto LeftWith s.host.captured
      (.done (outcomeInto .keep
        (Except.ok true, { s with host := s.host.capture stream chunks.flatten })))
      ((WasiCall.sendAll stream chunks).startAt (s.into .send)) := by
  induction chunks generalizing s with
  | nil =>
    have same : s.host.capture stream [] = s.host := by
      cases stream <;> simp [HostState.capture]
    rw [List.flatten_nil, same]
    exact .done (Except.ok true, s) rfl
  | cons chunk chunks ih =>
    have later := ih { s with host := s.host.capture stream chunk }
    have same : (s.host.capture stream chunk).capture stream chunks.flatten =
        s.host.capture stream (chunk ++ chunks.flatten) := by
      cases stream <;> simp [HostState.capture]
    have sent : Store.into .send { s with host := s.host.capture stream chunk } = s.into .send := by
      cases stream <;> rfl
    rw [sent, same, HostState.captured_capture] at later
    rw [WasiCall.sendAll, startAt_bind, startAt_ask]
    exact .send stream chunk later

theorem mirrors_deliver (stream : OutputStream) (chunks : List (List UInt8)) :
    Mirrors Bool (WasiCall.deliver stream chunks) (WasiCall.deliver stream chunks) := by
  intro s
  rw [WasiCall.startAt_deliver, WasiCall.startAt_deliver]
  have sending := mirrors_sendAll stream chunks s
  cases stream <;> exact sending

theorem mirrors_fatal (e : HostError) : Mirrors α (Run.fatal e) (Run.fatal e) := by
  intro s
  rw [startAt_fatal, startAt_fatal]
  exact .ask _ rfl fun _ => .done (Except.error (Stop.host e), s) rfl

theorem mirrors_needing (f : Feature) (call : String) {x y : Run α} (h : Mirrors α x y) :
    Mirrors α (Run.needing f call x) (Run.needing f call y) := by
  intro s
  rw [startAt_needing, startAt_needing]
  have has (k : Sink) : (s.into k).host.config.has f = s.host.config.has f := by
    cases f <;> rfl
  rw [has, has]
  split
  · exact h s
  · exact mirrors_fatal _ s

/-- Everything that guests and host functions do goes alike with both sinks. -/
theorem mirrors : Congruence (fun e => e.isFatal = true) Mirrors where
  pure a s := .done (Except.ok a, s) rfl
  bind h next s := by
    rw [startAt_bind, startAt_bind]
    apply (h s).bind
    intro x out all
    rcases x with ⟨stop | a, s'⟩
    · exact .done (Except.error stop, s') all
    · subst all
      exact next a s'
  fault f _ s := .done (Except.error (Stop.fault f), s) rfl
  fail e _ s := .done (Except.error (Stop.host e), s) rfl
  fatal e _ := mirrors_fatal e
  needing f call _ _ _ h := mirrors_needing f call h
  ask q _ other s := by
    rw [startAt_ask, startAt_ask]
    exact .ask q other fun answer => .done (Except.ok answer, s) rfl
  deliver := mirrors_deliver
  store same s := same _ _ (s.agree_into .keep .send) s
  modify f same s := by
    change Action.Mirrors _ _ _ (.done (Except.ok (), f { s with host := s.host.into .keep }))
      (.done (Except.ok (), f { s with host := s.host.into .send }))
    rw [same s (s.host.into .keep), same s (s.host.into .send)]
    have all : LeftWith (.ok PUnit.unit, { f s with host := s.host }) s.host.captured := rfl
    exact .done _ all
  stage r s := .done (Except.ok (), { s with host := { s.host with staging := r } }) rfl
  record notice s := .done (Except.ok (), { s with host := s.host.recordGrowth notice }) rfl

end Run

namespace Guest

open Wasm (Module)

def into (k : Sink) (g : Guest) : Guest := { g with store := g.store.into k }

def outcomeInto (k : Sink) (x : Except GuestError (List (BitVec 64)) × Guest) :
    Except GuestError (List (BitVec 64)) × Guest := (x.1, x.2.into k)

def madeInto (k : Sink) (x : Except GuestError Guest) : Except GuestError Guest := x.map (into k)

def CalledWith (x : Except GuestError (List (BitVec 64)) × Guest) (out : Output) : Prop :=
  x.2.store.host.captured = out

def MadeWith (x : Except GuestError Guest) (out : Output) : Prop :=
  ∀ g, x = .ok g → g.store.host.captured = out

theorem prepare_into (k : Sink) (g : Guest) : (g.into k).prepare = g.prepare := rfl

theorem memory?_into (k : Sink) (g : Guest) : (g.into k).memory? = g.memory? := rfl

theorem mirrors_call (g : Guest) (name : String) (args : List (BitVec 64)) :
    Action.Mirrors outcomeInto CalledWith g.store.host.captured
      ((g.into .keep).call name args) ((g.into .send).call name args) := by
  rw [call_eq, call_eq, prepare_into, prepare_into]
  cases prepared : g.prepare name args with
  | error e => exact .done (Except.error e, g) rfl
  | ok run =>
    have typed := types_of_prepare prepared
    apply Action.Mirrors.bind (Run.mirrors.call g.image.raises_fatal .embedder _ _ typed g.store)
    intro x out all
    have called : CalledWith (outcome x.1, ⟨g.image, x.2⟩) out := all
    exact .done _ called

theorem madeWith_error (e : GuestError) (out : Output) : MadeWith (.error e) out := by
  intro g made
  cases made

theorem madeWith_ok (g : Guest) : MadeWith (.ok g) g.store.host.captured := by
  intro g' made
  cases made
  rfl

theorem mirrors_runSetup (g : Guest) :
    Action.Mirrors madeInto MadeWith g.store.host.captured (runSetup (g.into .keep))
      (runSetup (g.into .send)) := by
  rw [runSetup_eq, runSetup_eq]
  change Action.Mirrors _ _ _ (if g.hasExport setupExport then _ else _)
    (if g.hasExport setupExport then _ else _)
  split
  · apply Action.Mirrors.ask _ rfl
    intro _
    apply (mirrors_call g setupExport []).bind
    intro x out all
    rcases x with ⟨e | words, g⟩
    · exact .done (Except.error { e with stage := .setup }) (madeWith_error _ out)
    · subst all
      exact .done (Except.ok g) (madeWith_ok g)
  · exact .done (Except.ok g) (madeWith_ok g)

theorem mirrors_bringUp (m : Module) (image : Image) (c : Config) :
    Action.Mirrors madeInto MadeWith Output.nothing (bringUp m image (c.into .keep))
      (bringUp m image (c.into .send)) := by
  apply Action.Mirrors.ask _ rfl
  intro origin
  rw [Action.done_bind, Action.done_bind]
  have fresh : (freshStore m c origin).host.captured = Output.nothing := by
    funext stream
    cases stream <;> rfl
  have started := Run.mirrors.startUp m image.raises_fatal (freshStore m c origin)
  rw [fresh] at started
  apply started.bind
  intro x out all
  rcases x with ⟨stop | _, store⟩
  · exact .done (Except.error (GuestError.mk .instantiate (.stopped stop))) (madeWith_error _ out)
  · subst all
    exact .ask _ rfl fun _ => mirrors_runSetup ⟨image, store⟩

theorem registrar_into (k : Sink) (c : Config) : registrar (c.into k) = registrar c := rfl

theorem mirrors_instantiate (m : Module) (c : Config) :
    Action.Mirrors madeInto MadeWith Output.nothing (instantiate m (c.into .keep))
      (instantiate m (c.into .send)) := by
  rw [instantiate_eq, instantiate_eq, registrar_into, registrar_into]
  split
  · exact .done (Except.error _) (madeWith_error _ _)
  · split
    · exact .done (Except.error _) (madeWith_error _ _)
    · apply Action.Mirrors.ask _ rfl
      intro _
      rw [Action.done_bind, Action.done_bind]
      split
      · exact .done (Except.error _) (madeWith_error _ _)
      · split
        · exact .done (Except.error _) (madeWith_error _ _)
        · exact mirrors_bringUp m _ c

theorem mirrors_load (m : Option Module) (c : Config) :
    Action.Mirrors madeInto MadeWith Output.nothing (load m (c.into .keep))
      (load m (c.into .send)) := by
  cases m with
  | none => exact .done (Except.error _) (madeWith_error _ _)
  | some m => exact mirrors_instantiate m c

/-- Guests that are alike but for their output. One has kept what the process has sent, and the
other has kept nothing. -/
structure Mirrors (sent : Output) (g g' : Guest) : Prop where
  image : g'.image = g.image
  memory : g'.store.memory = g.store.memory
  table : g'.store.table = g.store.table
  globals : g'.store.globals = g.store.globals
  kept : g.store.host.captured = sent
  empty : g'.store.host.captured = Output.nothing

theorem mirrors_into (g : Guest) :
    Mirrors g.store.host.captured (g.into .keep) (g.into .send) where
  image := rfl
  memory := rfl
  table := rfl
  globals := rfl
  kept := by
    funext stream
    cases stream <;> rfl
  empty := by
    funext stream
    cases stream <;> rfl

end Guest

def Step.isPlain : Step → Bool
  | .create .. | .host .. => false
  | _ => true

namespace Session

def into (k : Sink) (s : Session) : Session := s.map (Option.map (Guest.into k))

def answerInto {γ : Type} (view : Sink → γ → γ) (k : Sink) (x : Reply × γ) : Reply × γ :=
  (x.1, view k x.2)

def KeptWith (s : Session) (out : Output) : Prop :=
  ∀ i g, s.guest? i = some g → i = 0 ∧ g.store.host.captured = out

def AnsweredWith (x : Reply × Guest) (out : Output) : Prop := x.2.store.host.captured = out

variable {s : Session} {out : Output}

theorem KeptWith.set {i : Nat} {g : Guest} (kept : s.KeptWith out) (found : s.guest? i = some g)
    (g' : Guest) : KeptWith (s.set i (some g')) g'.store.host.captured := by
  intro j h at_j
  have first : i = 0 := (kept i g found).1
  rw [guest?_set found] at at_j
  by_cases same : j = i
  · rw [if_pos same] at at_j
    cases at_j
    exact ⟨same.trans first, rfl⟩
  · rw [if_neg same] at at_j
    have first' : j = 0 := (kept j h at_j).1
    exact absurd (first'.trans first.symm) same

theorem mirrors_onGuest (kept : s.KeptWith out) (i : Nat) {f : Guest → Action (Reply × Guest)}
    (alike : ∀ g : Guest, Action.Mirrors (answerInto Guest.into) AnsweredWith
      g.store.host.captured (f (g.into .keep)) (f (g.into .send))) :
    Action.Mirrors (answerInto into) (fun x => x.2.KeptWith) out ((s.into .keep).onGuest i f)
      ((s.into .send).onGuest i f) := by
  unfold onGuest
  rw [into, into, guest?_map, guest?_map]
  cases found : s.guest? i with
  | none => exact .done (Reply.noGuest, s) kept
  | some g =>
    have told := (kept i g found).2
    subst told
    apply (alike g).bind
    intro x out all
    rcases x with ⟨reply, g'⟩
    subst all
    dsimp only [answerInto]
    rw [set_map, set_map]
    exact .done (reply, s.set i (some g')) (kept.set found g')

theorem mirrors_onMemory (kept : s.KeptWith out) (i : Nat)
    (f : LinearMemory → Reply × LinearMemory) :
    Action.Mirrors (answerInto into) (fun x => x.2.KeptWith) out ((s.into .keep).onMemory i f)
      ((s.into .send).onMemory i f) := by
  apply mirrors_onGuest kept i
  intro g
  rw [Guest.memory?_into, Guest.memory?_into]
  split
  · exact .done (Reply.noMemory, g) rfl
  · rename_i m _
    have changed : AnsweredWith ((f m).1, g.setMemory (f m).2) g.store.host.captured := rfl
    exact .done _ changed

theorem mirrors_step (kept : s.KeptWith out) {q : Step} (plain : q.isPlain = true) :
    Action.Mirrors (answerInto into) (fun x => x.2.KeptWith) out ((s.into .keep).step q)
      ((s.into .send).step q) := by
  unfold step
  cases q with
  | create m text => cases plain
  | host i q => cases plain
  | call i name args =>
    apply mirrors_onGuest kept i
    intro g
    apply (Guest.mirrors_call g name args).bind
    intro x out all
    have answered : AnsweredWith (callReply x.1, x.2) out := all
    exact .done _ answered
  | hasExport i name =>
    apply mirrors_onGuest kept i
    intro g
    exact .done (Reply.flag _, g) rfl
  | memory i q => exact mirrors_onMemory kept i _
  | pages i => exact mirrors_onMemory kept i _
  | grow i delta => exact mirrors_onMemory kept i _

theorem mirrors_create (m : Option Wasm.Module) (c : Config) {text text' : String}
    (keeps : Config.ofText text = .ok (c.into .keep))
    (sends : Config.ofText text' = .ok (c.into .send)) :
    Action.Mirrors (answerInto into) (fun x => x.2.KeptWith) Output.nothing
      (create [] m text) (create [] m text') := by
  simp only [create, keeps, sends]
  apply (Guest.mirrors_load m c).bind
  intro made out all
  cases made with
  | error e =>
    refine .done (Reply.guestError e, [none]) fun i g found => ?_
    cases i <;> cases found
  | ok g =>
    refine .done (Reply.nothing, [some g]) fun i g' found => ?_
    cases i with
    | zero =>
      cases found
      exact ⟨rfl, all g rfl⟩
    | succ i => cases found

def answeredUnoffered (x : Reply × Trace) : Reply × Trace := (x.1, x.2.unoffered)

/-- Two sessions went alike, but what the guests of one kept the process of the other sent. -/
structure Transcript.Mirrors (T X : Transcript) : Prop where
  replies : T.replies = X.replies.map answeredUnoffered
  offered (stream : OutputStream) : T.trace.offered stream = []
  ended : ∃ s s' : Session, T.ending = .value s ∧ X.ending = .value s' ∧
    List.Forall₂ (Option.Rel (Guest.Mirrors X.trace.sent)) s s'

/-- Steps taken in two sessions, when `out` has gone to the sink of the guest before. -/
def PlayedAlike (w : World) (t : Trace) (out : Output) (s s' : Session) (qs qs' : List Step) :
    Prop :=
  ∃ (answers : List (Reply × Trace)) (left : Session),
    left.KeptWith (out.append (Trace.sent (answers.flatMap (·.2)))) ∧
    play w s t.unoffered qs = ⟨answers.map answeredUnoffered, .value (left.into .keep), []⟩ ∧
    play w s' t qs' = ⟨answers, .value (left.into .send), []⟩

theorem PlayedAlike.cons {w : World} (accepts : w.Accepts) (t : Trace) {s s' : Session}
    {q q' : Step} {qs qs' : List Step}
    (first : Action.Mirrors (answerInto into) (fun x => x.2.KeptWith) out (s.step q) (s'.step q'))
    (rest : ∀ t out (s : Session), s.KeptWith out →
      PlayedAlike w t out (s.into .keep) (s.into .send) qs qs') :
    PlayedAlike w t out s s' (q :: qs) (q' :: qs') := by
  obtain ⟨⟨r, s₁⟩, u, kept, left, right⟩ := first.run accepts t
  obtain ⟨answers, s₂, kept', left', right'⟩ := rest (t ++ u) _ s₁ kept
  rw [Trace.unoffered_append] at left'
  refine ⟨(r, u) :: answers, s₂, ?_, ?_, ?_⟩
  · rwa [List.flatMap_cons, Trace.sent_append, ← Output.append_assoc]
  · have played := play_answered left qs
    dsimp only [answerInto] at played
    rw [played, left']
    rfl
  · have played := play_answered right qs'
    dsimp only [answerInto] at played
    rw [played, right']
    rfl

theorem playedAlike_plain {w : World} (accepts : w.Accepts) (t : Trace) (kept : s.KeptWith out)
    {qs : List Step} (plain : ∀ q ∈ qs, q.isPlain = true) :
    PlayedAlike w t out (s.into .keep) (s.into .send) qs qs := by
  induction qs generalizing s out t with
  | nil =>
    refine ⟨[], s, ?_, rfl, rfl⟩
    rwa [List.flatMap_nil, Trace.sent_nil, Output.append_nothing]
  | cons q qs ih =>
    rw [List.forall_mem_cons] at plain
    exact .cons accepts t (mirrors_step kept plain.1) fun t out s kept => ih t kept plain.2

theorem offered_unoffered (answers : List (Reply × Trace)) (stream : OutputStream) :
    Trace.offered ((answers.map answeredUnoffered).flatMap (·.2)) stream = [] := by
  induction answers with
  | nil => rfl
  | cons x answers ih =>
    rw [List.map_cons, List.flatMap_cons, Trace.offered, List.filterMap_append]
    rw [Trace.offered] at ih
    rw [ih, List.append_nil]
    exact x.2.offered_unoffered stream

theorem KeptWith.mirrors (kept : s.KeptWith out) :
    List.Forall₂ (Option.Rel (Guest.Mirrors out)) (s.into .keep) (s.into .send) := by
  simp only [into, List.forall₂_map_left_iff, List.forall₂_map_right_iff]
  rw [List.forall₂_same]
  intro g member
  cases g with
  | none => exact .none
  | some g =>
    obtain ⟨i, below, at_i⟩ := List.mem_iff_getElem.mp member
    have found : s.guest? i = some g := by
      rw [guest?, List.getElem?_eq_getElem below, at_i]
      rfl
    have told := (kept i g found).2
    subst told
    exact .some g.mirrors_into

/-- A guest is made, its exports are called and its memory is looked at or changed, once with its
output kept and once with it sent, in one world whose streams take everything. All answers are the
same, those to calls that fail among them; then the guests are the same but for their output; what
the one has kept is what the process has sent for the other, which has kept nothing; and for the
first the process was not even offered anything to send. The steps are any, so this holds after each
of them. -/
theorem play_sinks (w : World) (m : Option Wasm.Module) (c : Config) (text text' : String)
    (qs : List Step) (accepts : w.Accepts) (keeps : Config.ofText text = .ok (c.into .keep))
    (sends : Config.ofText text' = .ok (c.into .send)) (plain : ∀ q ∈ qs, q.isPlain = true) :
    (play w [] [] (.create m text :: qs)).Mirrors (play w [] [] (.create m text' :: qs)) := by
  have alike : PlayedAlike w [] Output.nothing [] [] (.create m text :: qs)
      (.create m text' :: qs) :=
    .cons accepts [] (mirrors_create m c keeps sends) fun t _ _ kept =>
      playedAlike_plain accepts t kept plain
  obtain ⟨answers, s, kept, left, right⟩ := alike
  change play w [] [] _ = _ at left
  rw [left, right]
  refine ⟨rfl, fun stream => ?_, _, _, rfl, rfl, ?_⟩
  · rw [Transcript.trace, List.append_nil]
    exact offered_unoffered answers stream
  · rw [Transcript.trace, List.append_nil]
    rw [Output.nothing_append] at kept
    exact kept.mirrors

def writingModule : Wasm.Module where
  imports := [⟨"wasi_snapshot_preview1", "fd_write", .func ⟨[.i32, .i32, .i32, .i32], [.i32]⟩⟩]
  funcs := [⟨⟨[], [.i32]⟩, fun _ => Wasm.Body.callFunc 0 [.i32 1, .i32 0, .i32 1, .i32 16]⟩]
  memory := some ⟨1, none⟩
  exports := [⟨"memory", .memory, 0⟩, ⟨"run", .func, 1⟩]
  data := [⟨0, [8, 0, 0, 0, 2, 0, 0, 0, 104, 105]⟩]
  maxDepth := 10

theorem play_sinks_writing :
    (play Surroundings.still.world [] []
      [.create (some writingModule) "\x7b\"fatal\":\"trap\",\"capture_output\":true\x7d",
        .call 0 "run" [], .memory 0 (.readU32 16)]).Mirrors
    (play Surroundings.still.world [] []
      [.create (some writingModule) "\x7b\"fatal\":\"trap\"\x7d",
        .call 0 "run" [], .memory 0 (.readU32 16)]) :=
  play_sinks Surroundings.still.world (some writingModule) .default
    "\x7b\"fatal\":\"trap\",\"capture_output\":true\x7d" "\x7b\"fatal\":\"trap\"\x7d"
    [.call 0 "run" [], .memory 0 (.readU32 16)]
    (Surroundings.still.accepts_world fun _ _ _ => rfl) (by decide) (by decide) (by decide)

end Session

end GuestHost
