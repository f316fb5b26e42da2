import GuestHost.Proofs.RecordedCongruence

/-!
What a record says of a store, kept along the life of a guest. It has to be kept by code of the guest,
which cannot see the host state, and by each event.
-/

namespace GuestHost

open Wasm (Val Func Module)

variable {α β : Type}

namespace Run

def KeepsHost (x : Run α) : Prop := ∀ s, (x.startAt s).Always fun p => p.2.host = s.host

theorem Silent.keepsHost {x : Run α} (hx : Silent x) : KeepsHost x :=
  fun s => (hx s).mono fun _ same => congrArg Store.host same

theorem KeepsHost.bind {x : Run α} {f : α → Run β} (hx : KeepsHost x)
    (hf : ∀ a, KeepsHost (f a)) : KeepsHost (x >>= f) := by
  intro s
  apply always_startAt_bind
  apply (hx s).mono
  intro p same
  rcases p with ⟨_ | a, s'⟩
  · exact same
  · exact (hf a s').mono fun _ same' => same'.trans same

theorem Meek.keepsHost {Raised : HostError → Prop} {x : Run α} (hx : Meek Raised x) : KeepsHost x :=
  fun s => (hx s).mono fun _ ended => ended.1

end Run

/-- What a record says of the store that is left, whatever happens next. -/
structure EventInvariant (Good : Store → History → Prop) : Prop where
  host {s s' : Store} {h : History} : Good s h → s'.host = s.host → Good s' h
  entered {s : Store} {h : History} (fn : Func) (args : List Val) :
    Good s h → Good s (h ++ [.entered fn args])
  dispatched {s : Store} {h : History} (t : Trampoline) (args : List Val) :
    Good s h → Good s (h ++ [.dispatched t args])
  served {s : Store} {h : History} (caller : Context) (f : HostFunction) (args : List Val) :
    (∀ t, f ≠ .trampoline t) → args.length ≤ f.type.params.length → Good s h →
      ((f.run caller args).startAt s).Always fun p => Good p.2 (h ++ [.served f args s p.1])

/-- A guest that was just made, with nothing in its record, says it too. -/
structure HistoryInvariant (config : Config) (Good : Store → History → Prop) : Prop
    extends EventInvariant Good where
  fresh (m : Module) (origin : Nat) : Good (Guest.freshStore m config origin) []

namespace Recorded

variable {Good : Store → History → Prop}

structure Ended (Good : Store → History → Prop) (h : History)
    (a : (Except Stop α × Store) × History) (b : Except Stop α × Store) : Prop where
  same : a.1 = b
  grown : h <+: a.2
  good : Good a.1.2 a.2

/-- The recorded run is the other one with a record, and that says of the store what it should. -/
def Records (Good : Store → History → Prop) (x : Recorded α) (y : Run α) : Prop :=
  ∀ s h, Good s h → Action.Along (Ended Good h) (startAt x s h) (y.startAt s)

theorem Records.pure (a : α) : Records Good (Pure.pure a) (Pure.pure a) :=
  fun _ h good => .done ⟨rfl, List.prefix_refl h, good⟩

theorem Records.bind {x : Recorded α} {y : Run α} {f : α → Recorded β} {g : α → Run β}
    (h : Records Good x y) (next : ∀ a, Records Good (f a) (g a)) :
    Records Good (x >>= f) (y >>= g) := by
  intro s past good
  rw [startAt_bind, Run.startAt_bind]
  apply (h s past good).bind
  rintro ⟨⟨r, s'⟩, past'⟩ _ ⟨rfl, grown, good⟩
  cases r with
  | error stop => exact .done ⟨rfl, grown, good⟩
  | ok a =>
    exact (next a s' past' good).mono fun _ _ ended =>
      { ended with grown := grown.trans ended.grown }

theorem records_watch {x : Run α} {told : Store → Except Stop α → History}
    (kept : ∀ s h, Good s h → (x.startAt s).Always fun p => Good p.2 (h ++ told s p.1)) :
    Records Good (RunIn.watch x told) x := by
  intro s h good
  rw [startAt_watch]
  apply ((kept s h good).along fun p => (p, h ++ told s p.1)).mono
  rintro _ b ⟨rfl, good⟩
  exact ⟨rfl, List.prefix_append h _, good⟩

end Recorded

namespace EventInvariant

open Recorded (Records)

variable {Good : Store → History → Prop}

theorem plain (inv : EventInvariant Good) {x : Run α} (kept : Run.KeepsHost x) :
    Records Good (RunIn.plain x) x := by
  apply Recorded.records_watch
  intro s h good
  apply (kept s).mono
  intro p same
  rw [List.append_nil]
  exact inv.host good same

theorem noted (e : Event) (kept : ∀ s h, Good s h → Good s (h ++ [e])) :
    Records Good (RunIn.note e) (pure ()) :=
  Recorded.records_watch fun s h good => kept s h good

/-- What is kept by each event is kept by all that guests and host functions do. -/
theorem congruence (inv : EventInvariant Good) :
    RecordedCongruence fun _ x y => Records Good x y where
  pure := .pure
  bind hx hf := hx.bind hf
  plain aloof := inv.plain aloof.keepsHost
  entered fn args := noted _ fun _ _ => inv.entered fn args
  dispatched t args _ meek := by
    have looked := (noted _ fun _ _ => inv.dispatched t args).bind fun _ => inv.plain meek.keepsHost
    rwa [pure_bind] at looked
  served c f args other count :=
    Recorded.records_watch fun _ _ good => inv.served c f args other count good

end EventInvariant

/-! Guests -/

namespace Guest

variable {Good : Store → History → Prop} {config : Config}

structure Recounted (Good : Store → History → Prop) (g : Guest) (h : History) : Prop where
  honest : g.image.Honest
  good : Good g.store h

structure Called (Good : Store → History → Prop) (h : History) (a : Answer × History)
    (b : Answer) : Prop where
  same : a.1 = b
  grown : h <+: a.2
  recounted : a.1.2.Recounted Good a.2

theorem along_call (inv : EventInvariant Good) {g : Guest} {h : History}
    (recounted : g.Recounted Good h) (name : String) (args : List (BitVec 64)) :
    Action.Along (Called Good h) (g.recordedCall h name args) (g.call name args) := by
  rw [recordedCall_eq, call_eq]
  cases prepared : g.prepare name args with
  | error e => exact .done ⟨rfl, List.prefix_refl h, recounted⟩
  | ok run =>
    have ran := inv.congruence.simulation.call (inv.congruence.hostRel recounted.honest) .embedder
      (g.image.maxDepth + 1) run.1 run.2 (types_of_prepare prepared)
    apply (ran g.store h recounted.good).bind
    rintro ⟨⟨r, s⟩, h'⟩ _ ⟨rfl, grown, good⟩
    exact .done ⟨rfl, grown, recounted.honest, good⟩

structure MadeRecounted (Good : Store → History → Prop) (x : Except GuestError Guest × History) :
    Prop where
  sound : ∃ s, Good s x.2
  guest (g : Guest) : x.1 = .ok g → g.Recounted Good x.2

theorem MadeRecounted.error {s : Store} {h : History} (good : Good s h) (e : GuestError) :
    MadeRecounted Good (.error e, h) := ⟨⟨s, good⟩, nofun⟩

theorem MadeRecounted.ok {g : Guest} {h : History} (recounted : g.Recounted Good h) :
    MadeRecounted Good (.ok g, h) := by
  refine ⟨⟨_, recounted.good⟩, fun g' same => ?_⟩
  cases same
  exact recounted

def MadeAlike (Good : Store → History → Prop) (a : Except GuestError Guest × History)
    (b : Except GuestError Guest) : Prop := a.1 = b ∧ MadeRecounted Good a

theorem along_setup (inv : HistoryInvariant config Good) {g : Guest} {h : History}
    (recounted : g.Recounted Good h) :
    Action.Along (MadeAlike Good) (g.runSetupIn (A := Recorder) h) g.runSetup := by
  rw [runSetup_eq]
  unfold runSetupIn
  split
  · apply Action.Along.ask
    intro _
    -- A line in the log is no call, and leaves the record as it is.
    apply (along_call inv.toEventInvariant (h := h ++ []) ?_ setupExport []).bind
    · rintro ⟨⟨r, g'⟩, h'⟩ _ ⟨rfl, _, recounted⟩
      cases r with
      | error e => exact .done ⟨rfl, .error recounted.good _⟩
      | ok words => exact .done ⟨rfl, .ok recounted⟩
    · rwa [List.append_nil]
  · exact .done ⟨rfl, .ok recounted⟩

theorem along_bringUp (inv : HistoryInvariant config Good) (m : Module) {i : Image}
    (honest : i.Honest) :
    Action.Along (MadeAlike Good) (bringUpIn (A := Recorder) m i config []) (bringUp m i config) := by
  apply Action.Along.ask
  intro origin
  have started := inv.congruence.simulation.startUp (inv.congruence.hostRel honest) m
  apply (started _ [] (inv.fresh m origin)).bind
  rintro ⟨⟨r, s⟩, h⟩ _ ⟨rfl, _, good⟩
  cases r with
  | error stop => exact .done ⟨rfl, .error good _⟩
  | ok =>
    apply Action.Along.ask
    intro _
    refine along_setup inv (h := h ++ []) ⟨honest, ?_⟩
    rwa [List.append_nil]

theorem along_instantiate (inv : HistoryInvariant config Good) (m : Module) :
    Action.Along (MadeAlike Good) (instantiateIn (A := Recorder) m config [])
      (instantiate m config) := by
  have good := inv.fresh m 0
  rw [instantiate_eq]
  unfold instantiateIn
  split
  · exact .done ⟨rfl, .error good _⟩
  · rw [registrar_ok]
    apply Action.Along.ask
    intro _
    cases (registrar config).1.checkImports m.imports with
    | error e => exact .done ⟨rfl, .error good _⟩
    | ok =>
      cases linked : Image.link m (registrar config).1.linker with
      | error f => exact .done ⟨rfl, .error good _⟩
      | ok image => exact along_bringUp inv m (Image.honest_of_link linked)

theorem along_load (inv : HistoryInvariant config Good) (m : Option Module) :
    Action.Along (MadeAlike Good) (recordedLoad m config) (load m config) := by
  cases m with
  | none => exact .done ⟨rfl, .error (inv.fresh { maxDepth := 0 } 0) _⟩
  | some m => exact along_instantiate inv m

structure Grown (Good : Store → History → Prop) (h : History) (xs : List (Answer × History)) :
    Prop where
  chain : List.IsChain (· <+: ·) (h :: xs.map (·.2))
  recounted : ∀ x ∈ xs, x.1.2.Recounted Good x.2

theorem Grown.nil (Good : Store → History → Prop) (h : History) : Grown Good h [] :=
  ⟨.singleton h, by simp⟩

theorem Grown.cons {g : Guest} {h h' : History} {xs : List (Answer × History)}
    (rest : Grown Good h' xs) (grown : h <+: h') (recounted : g.Recounted Good h')
    (r : Except GuestError (List (BitVec 64))) : Grown Good h (((r, g), h') :: xs) :=
  ⟨.cons_cons grown rest.chain, List.forall_mem_cons.mpr ⟨recounted, rest.recounted⟩⟩

theorem along_calls (inv : EventInvariant Good) {g : Guest} {h : History}
    (recounted : g.Recounted Good h) (calls : List ExportCall) :
    Action.Along (fun a b => a.map (·.1) = b ∧ Grown Good h a) (g.recordedCalls h calls)
      (g.callAll calls) := by
  induction calls generalizing g h with
  | nil => exact .done ⟨rfl, .nil Good h⟩
  | cons c cs ih =>
    apply (along_call inv recounted c.name c.args).bind
    rintro ⟨⟨r, g'⟩, h'⟩ _ ⟨rfl, grown, recounted⟩
    apply (ih recounted).bind
    rintro xs _ ⟨rfl, rest⟩
    exact .done ⟨rfl, rest.cons grown recounted r⟩

/-- What the recorded life of a guest has come to. -/
structure Lived (Good : Store → History → Prop)
    (x : (Except GuestError Guest × History) × List (Answer × History)) : Prop where
  made : MadeRecounted Good x.1
  grown : Grown Good x.1.2 x.2

theorem along_life (inv : HistoryInvariant config Good) (m : Option Module)
    (calls : List ExportCall) :
    Action.Along (fun a b => unrecorded a = b ∧ Lived Good a) (recordedLife m config calls)
      (life m config calls) := by
  apply (along_load inv m).bind
  rintro ⟨made, h⟩ _ ⟨rfl, recounted⟩
  cases made with
  | error e => exact .done ⟨rfl, recounted, .nil Good h⟩
  | ok g =>
    apply (along_calls inv.toEventInvariant (recounted.guest g rfl) calls).bind
    rintro xs _ ⟨rfl, grown⟩
    exact .done ⟨rfl, recounted, grown⟩

end Guest

end GuestHost
