import GuestHost.Proofs.RecordedCongruence

/-!
Whose error it is that stops a run. Main statement: through any calls of guests and trampolines it
comes from the last call that was taken down, and no call before that failed with one; and a run that
is not stopped by such an error has met none.
-/

namespace GuestHost

open Wasm (Val Func Module)

variable {α β : Type}

/-- The call did not answer with an error of the host. -/
def Event.Quiet (x : Event) : Prop :=
  ∀ f args before e, x ≠ .served f args before (.error (.host e))

/-- What the record of a run says of its end. -/
inductive Blames : History → Except Stop α → Prop
  | raised {before : History} {last : Event} {e : HostError} (quiet : ∀ x ∈ before, x.Quiet)
      (raises : last.Raises e) : Blames (before ++ [last]) (.error (.host e))
  | calm {h : History} {r : Except Stop α} (own : ∀ e, r ≠ .error (.host e))
      (quiet : ∀ x ∈ h, x.Quiet) : Blames h r

theorem Blames.quiet_of_ok {h : History} {a : α} (blames : Blames h (.ok a : Except Stop α)) :
    ∀ x ∈ h, x.Quiet := by
  cases blames with
  | calm _ quiet => exact quiet

/-- What comes first has met no such error when there is more to come. -/
theorem Blames.after {first later : History} {r : Except Stop α} (blames : Blames later r)
    (quiet : ∀ x ∈ first, x.Quiet) : Blames (first ++ later) r := by
  cases blames with
  | raised before raises =>
    rw [← List.append_assoc]
    exact .raised (List.forall_mem_append.mpr ⟨quiet, before⟩) raises
  | calm own later => exact .calm own (List.forall_mem_append.mpr ⟨quiet, later⟩)

theorem Blames.stopped {h : History} {stop : Stop} (blames : Blames h (.error stop : Except Stop α)) :
    Blames h (.error stop : Except Stop β) := by
  cases blames with
  | raised quiet raises => exact .raised quiet raises
  | calm own quiet => exact .calm (fun e same => own e (by cases same; rfl)) quiet

theorem Blames.one {x : Event} {r : Except Stop α} (raised : ∀ e, r = .error (.host e) → x.Raises e)
    (quiet : (∀ e, r ≠ .error (.host e)) → x.Quiet) : Blames [x] r := by
  by_cases blamed : ∃ e, r = .error (.host e)
  · obtain ⟨e, rfl⟩ := blamed
    exact @Blames.raised _ [] _ _ (List.forall_mem_nil _) (raised e rfl)
  · have own := not_exists.mp blamed
    exact .calm own (by simpa using quiet own)

namespace Recorded

structure Explained (h : History) (a : (Except Stop α × Store) × History)
    (b : Except Stop α × Store) : Prop where
  same : a.1 = b
  record : ∃ later, a.2 = h ++ later ∧ Blames later a.1.1

def Explains (x : Recorded α) (y : Run α) : Prop :=
  ∀ s h, Action.Along (Explained h) (startAt x s h) (y.startAt s)

theorem explains_watch {x : Run α} {told : Store → Except Stop α → History}
    (blames : ∀ s, (x.startAt s).Always fun p => Blames (told s p.1) p.1) :
    Explains (RunIn.watch x told) x := by
  intro s h
  rw [startAt_watch]
  apply ((blames s).along fun p => (p, h ++ told s p.1)).mono
  rintro _ b ⟨rfl, blames⟩
  exact ⟨rfl, _, rfl, blames⟩

theorem Explains.bind {x : Recorded α} {y : Run α} {f : α → Recorded β} {g : α → Run β}
    (h : Explains x y) (next : ∀ a, Explains (f a) (g a)) : Explains (x >>= f) (y >>= g) := by
  intro s past
  rw [startAt_bind, Run.startAt_bind]
  apply (h s past).bind
  rintro ⟨⟨r, s'⟩, past'⟩ _ ⟨rfl, first, rfl, blames⟩
  cases r with
  | error stop => exact .done ⟨rfl, first, rfl, blames.stopped⟩
  | ok a =>
    apply (next a s' (past ++ first)).mono
    rintro _ _ ⟨same, later, record, blames'⟩
    exact ⟨same, first ++ later, by rw [record, List.append_assoc],
      blames'.after blames.quiet_of_ok⟩

theorem startAt_note_bind (e : Event) (x : Recorded α) (s : Store) (h : History) :
    startAt (RunIn.note e >>= fun _ => x) s h = startAt x s (h ++ [e]) := rfl

theorem note_plain (e : Event) (x : Run α) :
    (RunIn.note e >>= fun _ => RunIn.plain x : Recorded α) = RunIn.watch x fun _ _ => [e] := by
  apply ExceptT.ext
  funext s h
  change startAt (RunIn.note e >>= fun _ => RunIn.plain x) s h =
    startAt (RunIn.watch x fun _ _ => [e]) s h
  simp only [startAt_note_bind, startAt_plain, startAt_watch]

/-- Errors of the host come from calls that are taken down. -/
theorem explains : RecordedCongruence fun _ x y => Explains x y where
  pure a s h := .done ⟨rfl, [], (List.append_nil h).symm, .calm nofun (by simp)⟩
  bind hx hf := hx.bind hf
  plain aloof := explains_watch fun s => (aloof s).mono fun p ended =>
    .calm (fun e same => ended.2 e same) (by simp)
  entered fn args := explains_watch fun s => .calm nofun (by simp [Event.Quiet])
  dispatched t args x meek := by
    rw [note_plain]
    exact explains_watch fun s => (meek s).mono fun p ended =>
      .one ended.2 fun _ => by simp [Event.Quiet]
  served c f args other count := explains_watch fun s => Action.always_of_forall _ fun (r, s') => by
    refine .one (fun e same => ?_) fun own f' args' before e same => ?_
    · cases same
      exact .served ..
    · cases same
      exact own e rfl

end Recorded

/-- The first that is taken down when a function is called. -/
inductive Code.Opens : Code → List Val → Event → Prop
  | entered (fn : Func) (args : List Val) : Opens (.guest fn) args (.entered fn args)
  | dispatched (type : Wasm.FuncType) (t : Trampoline) (args : List Val) :
    Opens (.host type (.trampoline t)) args (.dispatched t args)
  | served (type : Wasm.FuncType) (f : HostFunction) (args : List Val) (before : Store)
      (r : Except Stop (List Val)) (other : ∀ t, f ≠ .trampoline t) :
    Opens (.host type f) args (.served f args before r)

namespace Recorded

theorem Explains.grown {x : Recorded α} {y : Run α} (h : Explains x y) (s : Store) (past : History) :
    (startAt x s past).Always fun p => ∃ later, p.2 = past ++ later ∧ Blames later p.1.1 :=
  (h s past).always fun _ _ ended => ended.record

theorem hostFunction_opens {c : ContextIn Recorder} {c' : Context}
    (related : ContextRel (fun _ x y => Explains x y) c c') (type : Wasm.FuncType)
    (f : HostFunction) (args : List Val) (s : Store) (h : History) :
    (startAt (f.runIn c args) s h).Always fun p =>
      ∃ first rest, p.2 = h ++ first :: rest ∧ (Code.host type f).Opens args first := by
  have once {x : Run (List Val)} (other : ∀ t, f ≠ .trampoline t)
      (served : f.runIn c args = RunIn.watch x fun s r => [.served f args s r]) :
      (startAt (f.runIn c args) s h).Always fun p =>
        ∃ first rest, p.2 = h ++ first :: rest ∧ (Code.host type f).Opens args first := by
    rw [served, startAt_watch, Action.always_bind]
    apply Action.always_of_forall
    intro p
    exact ⟨_, [], rfl, .served type f args s p.1 other⟩
  cases f with
  | trampoline t =>
    obtain ⟨x, k, _, recorded, -, -, next⟩ := explains.trampoline_parts related t args
    rw [recorded, note_plain, startAt_bind, startAt_watch, Action.bind_assoc, Action.always_bind]
    apply Action.always_of_forall
    rintro ⟨stop | func, s'⟩
    · exact ⟨_, [], rfl, .dispatched type t args⟩
    · have grown := (next func).grown s' (h ++ [.dispatched t args])
      apply grown.mono
      rintro p ⟨later, record, -⟩
      exact ⟨_, later, by rw [record, ← List.append_cons], .dispatched type t args⟩
  | primitive | syscall | wasi => exact once nofun rfl

/-- A call begins with the function that is called, and its record says how it ended. -/
theorem call_explained {i : Image} (honest : i.Honest) (caller : Caller) {func : Nat} {code : Code}
    (known : i.code[func]? = some code) {args : List Val}
    (typed : args.map Val.type = code.type.params) (d : Nat) (s : Store) (h : History) :
    (startAt (i.callIn caller (d + 1) func args) s h).Always fun p =>
      ∃ first rest, p.2 = h ++ first :: rest ∧ code.Opens args first ∧
        Blames (first :: rest) p.1.1 := by
  have host := explains.hostRel honest
  have whole := (explains.simulation.call host caller (d + 1) func args fun code' known' => by
    cases known.symm.trans known'
    exact typed).grown s h
  have opens : (startAt (i.callIn caller (d + 1) func args) s h).Always fun p =>
      ∃ first rest, p.2 = h ++ first :: rest ∧ code.Opens args first := by
    have below (caller : Caller) := explains.simulation.imageCallee host d caller
    cases code with
    | host type f =>
      have related : ContextRel (fun _ x y => Explains x y)
          (i.context caller (i.calleeIn d .embedder)) (i.context caller (i.calleeIn d .embedder)) :=
        ⟨rfl, rfl, below .embedder⟩
      rw [i.callIn_host known]
      exact hostFunction_opens related type f args s h
    | guest fn =>
      have grown : Explains _ _ := explains.simulation.body (below .guest) fn args
      rw [i.callIn_guest known, Func.exec, startAt_note_bind]
      apply (grown.grown s (h ++ [Event.entered fn args])).mono
      rintro p ⟨later, record, -⟩
      exact ⟨_, later, by rw [record, ← List.append_cons], .entered fn args⟩
  apply (whole.and opens).mono
  rintro p ⟨⟨later, record, blames⟩, first, rest, record', opens⟩
  cases List.append_cancel_left (record.symm.trans record')
  exact ⟨first, rest, record', opens, blames⟩

end Recorded

end GuestHost
