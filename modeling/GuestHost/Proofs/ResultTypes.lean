import GuestHost.Proofs.Arms
import GuestHost.Proofs.ReachableGuests

/-!
Types of results. Main statement: whatever function is called, if it ends with results, they have its
types. The machine sees to this for functions of the guest, and the trampolines for what they call.
-/

namespace GuestHost

open Wasm (Val Func Module)

/-! What runs end with -/

namespace Run

variable {α β : Type} {P : α → Prop} {Q : β → Prop}

/-- If the run ends with a value, that has the property. -/
def Yields (P : α → Prop) (x : Run α) : Prop :=
  ∀ s, (x.startAt s).Always fun p => ∀ a, p.1 = .ok a → P a

theorem yields_pure {a : α} (h : P a) : Yields P (pure a) := by
  intro s a' same
  cases same
  exact h

theorem yields_fault (f : Wasm.Fault) : Yields P (fault f : Run α) := fun _ _ => nofun

theorem yields_fail (e : HostError) : Yields P (fail e : Run α) := fun _ _ => nofun

theorem yields_fatal (e : HostError) : Yields P (fatal e : Run α) := by
  intro s
  rw [startAt_fatal]
  intro _
  cases s.host.config.fatal with
  | exit =>
    intro _
    trivial
  | trap => exact fun _ => nofun

theorem Yields.mono {P' : α → Prop} {x : Run α} (hx : Yields P x) (imp : ∀ a, P a → P' a) :
    Yields P' x :=
  fun s => (hx s).mono fun _ yielded a same => imp a (yielded a same)

theorem Yields.bind {x : Run α} {f : α → Run β} (hx : Yields P x)
    (hf : ∀ a, P a → Yields Q (f a)) : Yields Q (x >>= f) := by
  intro s
  apply always_startAt_bind
  apply (hx s).mono
  rintro ⟨stop | a, s'⟩ yielded
  · exact fun _ => nofun
  · exact hf a (yielded a rfl) s'

/-- What comes last may have the property whatever came before. -/
theorem yields_bind (x : Run α) {f : α → Run β} (hf : ∀ a, Yields Q (f a)) :
    Yields Q (x >>= f) := by
  have any : Yields (fun _ => True) x := fun s => Action.always_of_forall _ fun _ _ _ => trivial
  exact any.bind fun a _ => hf a

end Run

open Run (yields_pure yields_fault yields_fail yields_fatal yields_bind)

def CalleeIn.Sound (c : Callee) : Prop :=
  ∀ args, Run.Yields (fun results => results.map Val.type = c.type.results) (c.call args)

theorem Wasm.Func.exec_yields (callee : Nat → Option Callee) (fn : Func) (args : List Val) :
    Run.Yields (fun results => results.map Val.type = fn.type.results) (fn.exec callee args) := by
  have checked (results : List Val) :
      Run.Yields (fun results => results.map Val.type = fn.type.results) (fn.checked results) := by
    unfold Func.checked
    split
    · rename_i types
      exact yields_pure types
    · exact yields_fault _
  exact yields_bind _ fun _ => yields_bind _ checked

/-! Functions of the host -/

variable {c : Context}

theorem Primitive.run_yields (c : Context) (p : Primitive) (args : List Val) :
    (p.run c args).Yields fun results => results.map Val.type = p.type.results := by
  obtain ⟨F, run_eq, arm⟩ := p.exists_arm args
  rw [run_eq]
  cases arm with
  | malformed => exact yields_fault _
  | notify notice => exact yields_bind _ fun _ => yields_pure rfl
  | setTemp value => exact yields_bind _ fun _ => yields_pure rfl
  | getTemp => exact yields_bind _ fun _ => yields_pure rfl
  | resize requested => exact yields_bind _ fun _ => yields_pure rfl
  | abort | longjmp => exact yields_fatal _
  | copy => exact yields_bind _ fun _ => yields_pure rfl

theorem Syscall.run_yields (s : Syscall) :
    s.run.Yields fun results => results.map Val.type = s.type.results := by
  unfold run
  split
  · exact yields_bind _ fun _ => yields_pure rfl
  · exact yields_fatal _

theorem WasiCall.run_yields (c : Context) (w : WasiCall) (args : List Val) :
    (w.run c args).Yields fun results => results.map Val.type = w.type.results := by
  have answered {x : Run (BitVec 32)} :
      (answer x).Yields fun results => results.map Val.type = [.i32] :=
    yields_bind x fun _ => yields_pure rfl
  unfold run
  cases w with
  | fdRead | fdClose | fdSeek => exact yields_fatal _
  | procExit =>
    dsimp only
    split
    · exact yields_fail _
    · exact yields_fault _
  | environGet | argsGet =>
    dsimp only
    split
    · exact yields_pure rfl
    · exact yields_fault _
  | fdWrite | environSizesGet | argsSizesGet | clockTimeGet | randomGet =>
    dsimp only
    split
    · exact answered
    · exact yields_fault _

/-- The types of the results are looked at when the target has ended. -/
theorem Trampoline.dispatch_yields (t : Trampoline) {callee : Callee} (sound : callee.Sound)
    (args : List Val) :
    (t.dispatch callee args).Yields fun results => results.map Val.type = t.type.results := by
  rw [dispatch_eq]
  split
  · exact yields_fault _
  · split
    · exact yields_fault _
    · split
      · exact yields_fault _
      · apply (sound args).bind
        intro results types
        split
        · exact yields_fault _
        · rename_i agree
          exact yields_pure (types.trans (not_not.mp agree))

theorem Trampoline.run_yields (sound : ∀ func callee, c.callee func = some callee → callee.Sound)
    (t : Trampoline) (args : List Val) :
    (t.run c args).Yields fun results => results.map Val.type = t.type.results := by
  by_cases slotted : ∃ slot words, args = .i32 slot :: words
  · obtain ⟨slot, words, rfl⟩ := slotted
    rw [run_slot]
    apply yields_bind
    intro host
    split
    · exact yields_fatal _
    · apply yields_bind
      intro func
      apply yields_bind
      intro _
      split
      · rename_i callee found
        exact t.dispatch_yields (sound func callee found) _
      · exact yields_fault _
  · rw [run, t.runIn_of_not_slot c slotted]
    exact yields_fault _

theorem HostFunction.run_yields (sound : ∀ func callee, c.callee func = some callee → callee.Sound)
    (f : HostFunction) (args : List Val) :
    (f.run c args).Yields fun results => results.map Val.type = f.type.results := by
  cases f with
  | primitive p => exact p.run_yields c args
  | trampoline t => exact t.run_yields sound args
  | syscall s => exact s.run_yields
  | wasi w => exact w.run_yields c args

/-! Images -/

namespace Image

theorem types_of_link {m : Module} {l : Linker HostFunction} {i : Image}
    (linked : link m l = .ok i) : i.code.map Code.type = m.funcTypes := by
  obtain ⟨ds, found, rfl⟩ := link_eq_ok_iff.mp linked
  have imported : m.importedFuncs = ds.map (·.type) := by
    rw [Module.importedFuncs]
    clear linked
    generalize m.imports = is at found ⊢
    induction found with
    | nil => rfl
    | cons here _ ih => simp [here.2, ih]
  rw [Module.funcTypes, imported, List.map_append, List.map_map, List.map_map]
  rfl

variable {i : Image} {func : Nat}

/-- By induction on the calls that can be open below this one. -/
theorem Honest.callee_sound (honest : i.Honest) (depth : Nat) (caller : Caller) {callee : Callee}
    (found : i.callee depth caller func = some callee) : callee.Sound := by
  induction depth generalizing caller func callee with
  | zero =>
    obtain ⟨code, known, rfl⟩ := Option.map_eq_some_iff.mp found
    exact fun _ => yields_fault _
  | succ depth ih =>
    obtain ⟨code, known, rfl⟩ := Option.map_eq_some_iff.mp found
    intro args
    cases code with
    | host type f =>
      obtain rfl := honest type f (List.mem_of_getElem? known)
      exact f.run_yields (fun _ _ found => ih .embedder found) args
    | guest fn => exact fn.exec_yields _ args

theorem Honest.call_yields (honest : i.Honest) (caller : Caller) {code : Code}
    (known : i.code[func]? = some code) (args : List Val) :
    (i.call caller func args).Yields fun results => results.map Val.type = code.type.results := by
  cases code with
  | host type f =>
    obtain rfl := honest type f (List.mem_of_getElem? known)
    have called : i.call caller func args = f.run _ args := i.callIn_host known caller i.maxDepth args
    rw [called]
    exact f.run_yields (fun _ _ found => honest.callee_sound i.maxDepth .embedder found) args
  | guest fn =>
    have called : i.call caller func args = fn.exec _ args :=
      i.callIn_guest known caller i.maxDepth args
    rw [called]
    exact fn.exec_yields _ args

end Image

end GuestHost
