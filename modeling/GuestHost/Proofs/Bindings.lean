import GuestHost.Import.Registrar

/-!
What registrars say of their linker. Registrars take turns on one linker, and all that one of them
does comes down to binding keys in order. Main statement: a binding names what the linker holds under
its key unless the linker refused that key, and a key that was refused stays bound all the same.
-/

namespace GuestHost

variable {φ ψ : Type}

/-! All that a registrar does, key by key -/

structure Registration (φ : Type) where
  binding : Binding
  type : Wasm.FuncType
  func : φ

namespace Registration

def ofNames (ns : String) (names : List String) (type : Wasm.FuncType) (func : φ) :
    List (Registration φ) :=
  names.map fun name => ⟨⟨⟨ns, name⟩, names.headD ""⟩, type, func⟩

def ofSet (embed : HostFunction → φ) (fs : List HostFunction) : List (Registration φ) :=
  fs.flatMap fun f => ofNames f.ns f.names f.type (embed f)

end Registration

namespace Registrar

def bindEach : List (Registration φ) → Registrar φ → Registrar φ × Except HostError Unit
  | [], r => (r, .ok ())
  | x :: xs, r =>
    match r.bind x.binding.key x.binding.shim x.type x.func with
    | (r, .ok ()) => bindEach xs r
    | (r, .error e) => (r, .error e)

theorem bindEach_append (xs ys : List (Registration φ)) (r : Registrar φ) :
    bindEach (xs ++ ys) r = match bindEach xs r with
      | (r, .ok ()) => bindEach ys r
      | (r, .error e) => (r, .error e) := by
  induction xs generalizing r with
  | nil => rfl
  | cons x xs ih =>
    simp only [List.cons_append, bindEach]
    rcases r.bind x.binding.key x.binding.shim x.type x.func with ⟨r, _ | _⟩
    · rfl
    · exact ih r

theorem bindAll_eq_bindEach (ns shim : String) (type : Wasm.FuncType) (func : φ)
    (names : List String) (r : Registrar φ) :
    bindAll ns shim type func names r =
      bindEach (names.map fun name => ⟨⟨⟨ns, name⟩, shim⟩, type, func⟩) r := by
  induction names generalizing r with
  | nil => rfl
  | cons name names ih =>
    simp only [List.map_cons, bindAll, bindEach]
    rcases r.bind ⟨ns, name⟩ shim type func with ⟨r, _ | _⟩
    · rfl
    · exact ih r

theorem register_eq_bindEach (r : Registrar φ) (ns : String) (names : List String)
    (type : Wasm.FuncType) (func : φ) :
    r.register ns names type func = bindEach (Registration.ofNames ns names type func) r :=
  bindAll_eq_bindEach ns _ type func names r

theorem registerAll_eq_bindEach (embed : HostFunction → φ) (fs : List HostFunction)
    (r : Registrar φ) : registerAll embed fs r = bindEach (Registration.ofSet embed fs) r := by
  induction fs generalizing r with
  | nil => rfl
  | cons f fs ih =>
    have split : Registration.ofSet embed (f :: fs) =
        Registration.ofNames f.ns f.names f.type (embed f) ++ Registration.ofSet embed fs := by
      simp [Registration.ofSet]
    rw [registerAll, register_eq_bindEach, split, bindEach_append]
    rcases bindEach (Registration.ofNames f.ns f.names f.type (embed f)) r with ⟨r, _ | _⟩
    · rfl
    · exact ih r

end Registrar

/-- What an embedder asks of a registrar. -/
inductive RegistrarCall (φ : Type)
  | register (ns : String) (names : List String) (type : Wasm.FuncType) (func : φ)
  | install (embed : HostFunction → φ)

namespace RegistrarCall

def on (r : Registrar φ) : RegistrarCall φ → Registrar φ × Except HostError Unit
  | register ns names type func => r.register ns names type func
  | install embed => r.install embed

def registrations (wasi : Bool) : RegistrarCall φ → List (Registration φ)
  | register ns names type func => Registration.ofNames ns names type func
  | install embed => Registration.ofSet embed (HostFunction.set wasi)

theorem on_eq_bindEach (r : Registrar φ) (call : RegistrarCall φ) :
    call.on r = r.bindEach (call.registrations r.wasi) := by
  cases call with
  | register ns names type func => exact r.register_eq_bindEach ns names type func
  | install embed => exact Registrar.registerAll_eq_bindEach embed _ r

end RegistrarCall

/-- Calls in order, with the answer to each. A call that fails does not keep the next from being
made. -/
def Registrar.perform (r : Registrar φ) :
    List (RegistrarCall φ) → Registrar φ × List (Except HostError Unit)
  | [] => (r, [])
  | call :: calls =>
    let (r, answer) := call.on r
    let (r, answers) := r.perform calls
    (r, answer :: answers)

/-! What a linker holds stays as it is -/

namespace Linker

def Extends (l l' : Linker φ) : Prop := ∃ more, l'.definitions = l.definitions ++ more

theorem Extends.refl (l : Linker φ) : l.Extends l := ⟨[], by simp⟩

theorem Extends.trans {l l' l'' : Linker φ} (first : l.Extends l') (second : l'.Extends l'') :
    l.Extends l'' := by
  obtain ⟨more, first⟩ := first
  obtain ⟨rest, second⟩ := second
  exact ⟨more ++ rest, by rw [second, first, List.append_assoc]⟩

theorem Extends.find? {l l' : Linker φ} (grown : l.Extends l') {key : Key} {d : Definition φ}
    (found : l.find? key = some d) : l'.find? key = some d := by
  obtain ⟨more, grown⟩ := grown
  rw [Linker.find?] at found ⊢
  rw [grown, List.find?_append, found]
  rfl

def add (l : Linker φ) (d : Definition φ) : Linker φ := ⟨l.definitions ++ [d]⟩

theorem extends_add (l : Linker φ) (d : Definition φ) : l.Extends (l.add d) := ⟨[d], rfl⟩

theorem find?_add_self {l : Linker φ} {d : Definition φ} (free : l.defines d.key = false) :
    (l.add d).find? d.key = some d := by
  have none : l.find? d.key = none := by simpa [defines] using free
  rw [Linker.find?] at none ⊢
  simp [add, List.find?_append, none]

theorem mem_of_find? {l : Linker φ} {key : Key} {d : Definition φ} (found : l.find? key = some d) :
    d ∈ l.definitions ∧ d.key = key :=
  ⟨List.mem_of_find?_eq_some found, by simpa using List.find?_some found⟩

end Linker

namespace Registrar

theorem claims_iff (r : Registrar φ) (key : Key) :
    r.claims key = true ↔ ∃ b ∈ r.bindings, b.key = key := by
  simp [claims]

def withBinding (r : Registrar φ) (b : Binding) : Registrar φ :=
  { r with bindings := r.bindings ++ [b] }

theorem claims_withBinding (r : Registrar φ) (b : Binding) (key : Key) :
    (r.withBinding b).claims key = true ↔ r.claims key = true ∨ b.key = key := by
  simp [claims, withBinding]

inductive Bound (r : Registrar φ) (x : Registration φ) :
    Registrar φ × Except HostError Unit → Prop
  | claimed (twice : r.claims x.binding.key = true) :
    Bound r x (r, .error (.duplicateImport x.binding.key.ns x.binding.key.name))
  | refused (new : r.claims x.binding.key = false)
      (taken : r.linker.defines x.binding.key = true) :
    Bound r x (r.withBinding x.binding,
      .error (.link x.binding.key.ns x.binding.key.name (Linker.refusal x.binding.key)))
  | defined (new : r.claims x.binding.key = false)
      (free : r.linker.defines x.binding.key = false) :
    Bound r x ({ r.withBinding x.binding with
      linker := r.linker.add ⟨x.binding.key, x.type, x.func⟩ }, .ok ())

theorem bind_bound (r : Registrar φ) (x : Registration φ) :
    Bound r x (r.bind x.binding.key x.binding.shim x.type x.func) := by
  unfold bind
  cases new : r.claims x.binding.key with
  | true => exact .claimed new
  | false =>
    cases free : r.linker.defines x.binding.key with
    | true =>
      have stopped := Bound.refused new free
      simpa [Linker.define, free, withBinding] using stopped
    | false =>
      have bound := Bound.defined new free
      simpa [Linker.define, free, withBinding, Linker.add] using bound

/-- A relation between a registrar and what becomes of it: it can be put together, and holds wherever
a key is bound. -/
structure Develops (R : Registrar φ → Registrar φ → Prop) : Prop where
  refl (r : Registrar φ) : R r r
  trans {r s t : Registrar φ} (first : R r s) (second : R s t) : R r t
  refused {r : Registrar φ} {b : Binding} (new : r.claims b.key = false)
    (taken : r.linker.defines b.key = true) : R r (r.withBinding b)
  defined {r : Registrar φ} {b : Binding} (type : Wasm.FuncType) (func : φ)
    (new : r.claims b.key = false) (free : r.linker.defines b.key = false) :
    R r { r.withBinding b with linker := r.linker.add ⟨b.key, type, func⟩ }

variable {R : Registrar φ → Registrar φ → Prop}

theorem Develops.bindEach (h : Develops R) (xs : List (Registration φ)) (r : Registrar φ) :
    R r (bindEach xs r).1 := by
  induction xs generalizing r with
  | nil => exact h.refl r
  | cons x xs ih =>
    have bound := r.bind_bound x
    rw [Registrar.bindEach]
    generalize r.bind x.binding.key x.binding.shim x.type x.func = result at bound ⊢
    cases bound with
    | claimed twice => exact h.refl r
    | refused new taken => exact h.refused new taken
    | defined new free => exact h.trans (h.defined x.type x.func new free) (ih _)

theorem Develops.perform (h : Develops R) (calls : List (RegistrarCall φ)) (r : Registrar φ) :
    R r (r.perform calls).1 := by
  induction calls generalizing r with
  | nil => exact h.refl r
  | cons call calls ih =>
    have first := h.bindEach (call.registrations r.wasi) r
    rw [← call.on_eq_bindEach] at first
    exact h.trans first (ih _)

theorem develops_extends : Develops fun r r' : Registrar φ => r.linker.Extends r'.linker where
  refl r := .refl r.linker
  trans := .trans
  refused _ _ := .refl _
  defined _ _ _ _ := Linker.extends_add _ _

end Registrar

/-! Who registered what -/

/-- The registrar that put a function into a linker, by its number, and the shim it stands for. -/
structure Owner where
  registrar : Nat
  shim : String
  deriving DecidableEq, Repr

structure Owned (φ : Type) where
  owner : Option Owner
  func : φ
  deriving DecidableEq, Repr

def RegistrarCall.ownedBy (n : Nat) : RegistrarCall φ → RegistrarCall (Owned φ)
  | register ns names type func => register ns names type ⟨some ⟨n, names.headD ""⟩, func⟩
  | install embed => install fun f => ⟨some ⟨n, f.name⟩, embed f⟩

theorem RegistrarCall.owner_of_mem {n : Nat} {wasi : Bool} {call : RegistrarCall φ}
    {x : Registration (Owned φ)} (member : x ∈ (call.ownedBy n).registrations wasi) :
    x.func.owner = some ⟨n, x.binding.shim⟩ := by
  cases call with
  | register ns names type func =>
    obtain ⟨name, _, rfl⟩ := List.mem_map.mp member
    rfl
  | install embed =>
    obtain ⟨f, _, member⟩ := List.mem_flatMap.mp member
    obtain ⟨name, _, rfl⟩ := List.mem_map.mp member
    rfl

def Linker.owner? (l : Linker (Owned φ)) (key : Key) : Option Owner :=
  (l.find? key).bind fun d => d.func.owner

theorem Linker.defines_of_owner? {l : Linker (Owned φ)} {key : Key} {o : Owner}
    (held : l.owner? key = some o) : l.defines key = true := by
  obtain ⟨d, found, _⟩ := Option.bind_eq_some_iff.mp held
  simp [Linker.defines, found]

theorem Linker.Extends.owner? {l l' : Linker (Owned φ)} (grown : l.Extends l') {key : Key}
    (held : l.defines key = true) : l'.owner? key = l.owner? key := by
  obtain ⟨d, found⟩ := Option.isSome_iff_exists.mp held
  rw [Linker.owner?, Linker.owner?, grown.find? found, found]

def Linker.OwnedBelow (l : Linker (Owned φ)) (n : Nat) : Prop :=
  ∀ d ∈ l.definitions, ∀ o, d.func.owner = some o → o.registrar < n

def Registrar.refusals (answers : List (Except HostError Unit)) : List Key :=
  answers.flatMap fun
    | .error (.link ns name _) => [⟨ns, name⟩]
    | _ => []

namespace Registrar

structure Accords (n : Nat) (refused : List Key) (r : Registrar (Owned φ)) : Prop where
  below : r.linker.OwnedBelow (n + 1)
  claimed : ∀ d ∈ r.linker.definitions, ∀ shim, d.func.owner = some ⟨n, shim⟩ →
    r.claims d.key = true
  bound : ∀ b ∈ r.bindings, b.key ∉ refused → r.linker.owner? b.key = some ⟨n, b.shim⟩
  taken : ∀ key ∈ refused, r.claims key = true ∧ r.linker.defines key = true ∧
    ∀ shim, r.linker.owner? key ≠ some ⟨n, shim⟩

variable {n : Nat} {refused : List Key} {r : Registrar (Owned φ)}

theorem Accords.fresh {l : Linker (Owned φ)} (below : l.OwnedBelow n) (wasi : Bool) :
    Accords n [] { wasi := wasi, linker := l } where
  below d member o owned := Nat.lt_succ_of_lt (below d member o owned)
  claimed d member shim owned := absurd (below d member _ owned) (Nat.lt_irrefl n)
  bound b member := by cases member
  taken key member := by cases member

theorem Accords.refuse (h : Accords n refused r) {b : Binding} (new : r.claims b.key = false)
    (taken : r.linker.defines b.key = true) :
    Accords n (refused ++ [b.key]) (r.withBinding b) where
  below := h.below
  claimed d member shim owned := by
    rw [claims_withBinding]
    exact .inl (h.claimed d member shim owned)
  bound c member kept := by
    simp only [List.mem_append, List.mem_singleton, not_or] at kept
    rcases List.mem_append.mp member with member | member
    · exact h.bound c member kept.1
    · exact absurd (congrArg Binding.key (List.mem_singleton.mp member)) kept.2
  taken key member := by
    rw [claims_withBinding]
    rcases List.mem_append.mp member with member | member
    · have old := h.taken key member
      exact ⟨.inl old.1, old.2⟩
    · obtain rfl := List.mem_singleton.mp member
      refine ⟨.inr rfl, taken, ?_⟩
      -- What this registrar put into the linker it has claimed, and this key it had not.
      intro shim held
      obtain ⟨d, found, owned⟩ := Option.bind_eq_some_iff.mp held
      obtain ⟨member, same⟩ := Linker.mem_of_find? found
      have claimed := h.claimed d member shim owned
      rw [same, new] at claimed
      cases claimed

theorem Accords.define (h : Accords n refused r) {x : Registration (Owned φ)}
    (own : x.func.owner = some ⟨n, x.binding.shim⟩)
    (free : r.linker.defines x.binding.key = false) :
    Accords n refused { r.withBinding x.binding with
      linker := r.linker.add ⟨x.binding.key, x.type, x.func⟩ } where
  below d member o owned := by
    rcases List.mem_append.mp member with member | member
    · exact h.below d member o owned
    · obtain rfl := List.mem_singleton.mp member
      obtain rfl := Option.some.inj (own.symm.trans owned)
      exact Nat.lt_succ_self n
  claimed d member shim owned := by
    change (r.withBinding x.binding).claims d.key = true
    rw [claims_withBinding]
    rcases List.mem_append.mp member with member | member
    · exact .inl (h.claimed d member shim owned)
    · exact .inr (congrArg Definition.key (List.mem_singleton.mp member)).symm
  bound b member kept := by
    have grown := r.linker.extends_add ⟨x.binding.key, x.type, x.func⟩
    rcases List.mem_append.mp member with member | member
    · have held := h.bound b member kept
      exact (grown.owner? (Linker.defines_of_owner? held)).trans held
    · obtain rfl := List.mem_singleton.mp member
      have found := Linker.find?_add_self (d := ⟨x.binding.key, x.type, x.func⟩) free
      rw [Linker.owner?, found]
      exact own
  taken key member := by
    have grown := r.linker.extends_add ⟨x.binding.key, x.type, x.func⟩
    obtain ⟨claimed, held, other⟩ := h.taken key member
    refine ⟨(claims_withBinding r x.binding key).mpr (.inl claimed), ?_, ?_⟩
    · obtain ⟨d, found⟩ := Option.isSome_iff_exists.mp held
      exact Option.isSome_iff_exists.mpr ⟨d, grown.find? found⟩
    · intro shim
      rw [grown.owner? held]
      exact other shim

theorem Accords.bindEach (h : Accords n refused r) {xs : List (Registration (Owned φ))}
    (own : ∀ x ∈ xs, x.func.owner = some ⟨n, x.binding.shim⟩) :
    Accords n (refused ++ refusals [(r.bindEach xs).2]) (r.bindEach xs).1 := by
  induction xs generalizing r with
  | nil => simpa [Registrar.bindEach, refusals] using h
  | cons x xs ih =>
    have bound := r.bind_bound x
    have rest := fun y member => own y (List.mem_cons_of_mem x member)
    rw [Registrar.bindEach]
    generalize r.bind x.binding.key x.binding.shim x.type x.func = result at bound ⊢
    cases bound with
    | claimed twice => simpa [refusals] using h
    | refused new taken => simpa [refusals] using h.refuse new taken
    | defined new free => exact ih (h.define (own x List.mem_cons_self) free) rest

theorem Accords.perform (h : Accords n refused r) (calls : List (RegistrarCall φ)) :
    Accords n (refused ++ refusals (r.perform (calls.map (·.ownedBy n))).2)
      (r.perform (calls.map (·.ownedBy n))).1 := by
  induction calls generalizing r refused with
  | nil => simpa [Registrar.perform, refusals] using h
  | cons call calls ih =>
    have own : ∀ x ∈ (call.ownedBy n).registrations r.wasi,
        x.func.owner = some ⟨n, x.binding.shim⟩ := fun x member => RegistrarCall.owner_of_mem member
    have first := h.bindEach own
    rw [← RegistrarCall.on_eq_bindEach] at first
    have all := ih first
    simp only [List.map_cons, Registrar.perform]
    simpa [refusals, List.append_assoc] using all

end Registrar

/-! What becomes of the functions makes no difference to a registrar -/

def Definition.map (f : φ → ψ) (d : Definition φ) : Definition ψ := ⟨d.key, d.type, f d.func⟩

def Linker.map (f : φ → ψ) (l : Linker φ) : Linker ψ := ⟨l.definitions.map (·.map f)⟩

def Registration.map (f : φ → ψ) (x : Registration φ) : Registration ψ :=
  ⟨x.binding, x.type, f x.func⟩

def RegistrarCall.map (f : φ → ψ) : RegistrarCall φ → RegistrarCall ψ
  | register ns names type func => register ns names type (f func)
  | install embed => install fun h => f (embed h)

theorem Linker.find?_map (f : φ → ψ) (l : Linker φ) (key : Key) :
    (l.map f).find? key = (l.find? key).map (·.map f) := by
  simp only [Linker.find?, Linker.map, List.find?_map]
  rfl

theorem RegistrarCall.registrations_map (f : φ → ψ) (wasi : Bool) (call : RegistrarCall φ) :
    (call.map f).registrations wasi = (call.registrations wasi).map (·.map f) := by
  cases call with
  | register ns names type func => simp [map, registrations, Registration.ofNames, Registration.map]
  | install embed =>
    simp [map, registrations, Registration.ofSet, Registration.ofNames, Registration.map,
      List.map_flatMap, Function.comp_def]

theorem RegistrarCall.map_ownedBy (n : Nat) (call : RegistrarCall φ) :
    (call.ownedBy n).map Owned.func = call := by
  cases call <;> rfl

namespace Registrar

def map (f : φ → ψ) (r : Registrar φ) : Registrar ψ := ⟨r.wasi, r.linker.map f, r.bindings⟩

theorem bindEach_map (f : φ → ψ) (xs : List (Registration φ)) (r : Registrar φ) :
    (r.map f).bindEach (xs.map (·.map f)) = ((r.bindEach xs).1.map f, (r.bindEach xs).2) := by
  induction xs generalizing r with
  | nil => rfl
  | cons x xs ih =>
    have defines : (r.linker.map f).defines x.binding.key = r.linker.defines x.binding.key := by
      simp [Linker.defines, Linker.find?_map]
    have left := (r.map f).bind_bound (x.map f)
    have right := r.bind_bound x
    rw [List.map_cons, bindEach, bindEach]
    generalize (r.map f).bind (x.map f).binding.key (x.map f).binding.shim (x.map f).type
      (x.map f).func = result at left ⊢
    generalize r.bind x.binding.key x.binding.shim x.type x.func = result' at right ⊢
    -- Both registrars have claimed and hold the same keys, so only equal cases meet.
    cases left with
    | claimed twice =>
      cases right with
      | claimed => rfl
      | refused new | defined new => exact absurd (twice.symm.trans new) (by decide)
    | refused new taken =>
      cases right with
      | claimed twice => exact absurd (twice.symm.trans new) (by decide)
      | refused => rfl
      | defined _ free => exact absurd (taken.symm.trans (defines.trans free)) (by decide)
    | defined new free =>
      cases right with
      | claimed twice => exact absurd (twice.symm.trans new) (by decide)
      | refused _ taken => exact absurd (taken.symm.trans (defines.symm.trans free)) (by decide)
      | defined =>
        rw [← ih]
        simp [map, withBinding, Linker.map, Linker.add, Definition.map, Registration.map]

theorem perform_map (f : φ → ψ) (calls : List (RegistrarCall φ)) (r : Registrar φ) :
    (r.map f).perform (calls.map (·.map f)) = ((r.perform calls).1.map f, (r.perform calls).2) := by
  induction calls generalizing r with
  | nil => rfl
  | cons call calls ih =>
    have first : (call.map f).on (r.map f) = ((call.on r).1.map f, (call.on r).2) := by
      rw [RegistrarCall.on_eq_bindEach, RegistrarCall.on_eq_bindEach,
        RegistrarCall.registrations_map]
      exact bindEach_map f _ r
    simp only [List.map_cons, perform, first, ih]

end Registrar

/-! Registrars one after another -/

/-- What one registrar does while it has the linker. -/
structure Turn (φ : Type) where
  wasi : Bool
  calls : List (RegistrarCall φ)

namespace Turn

def take (n : Nat) (l : Linker (Owned φ)) (t : Turn φ) :
    Registrar (Owned φ) × List (Except HostError Unit) :=
  Registrar.perform { wasi := t.wasi, linker := l } (t.calls.map (·.ownedBy n))

/-- What a linker holds after the turns of the `n`th registrar and those after it. -/
def takeAll (n : Nat) (l : Linker (Owned φ)) : List (Turn φ) → Linker (Owned φ)
  | [] => l
  | t :: ts => takeAll (n + 1) (t.take n l).1.linker ts

/-- Without their owners a registrar does the same with its functions. -/
theorem take_map_func (n : Nat) (l : Linker (Owned φ)) (t : Turn φ) :
    Registrar.perform { wasi := t.wasi, linker := l.map Owned.func } t.calls =
      ((t.take n l).1.map Owned.func, (t.take n l).2) := by
  have same : (t.calls.map (·.ownedBy n)).map (·.map Owned.func) = t.calls := by
    simp [RegistrarCall.map_ownedBy, Function.comp_def]
  have forgotten := Registrar.perform_map Owned.func (t.calls.map (·.ownedBy n))
    { wasi := t.wasi, linker := l }
  rw [same] at forgotten
  exact forgotten

theorem take_accords {n : Nat} {l : Linker (Owned φ)} (below : l.OwnedBelow n) (t : Turn φ) :
    (t.take n l).1.Accords n (Registrar.refusals (t.take n l).2) := by
  have accords := (Registrar.Accords.fresh below t.wasi).perform t.calls
  rwa [List.nil_append] at accords

theorem takeAll_below {n : Nat} {l : Linker (Owned φ)} (below : l.OwnedBelow n)
    (ts : List (Turn φ)) : (takeAll n l ts).OwnedBelow (n + ts.length) := by
  induction ts generalizing n l with
  | nil => exact below
  | cons t ts ih =>
    have rest := ih (take_accords below t).below
    rwa [Nat.add_right_comm, Nat.add_assoc] at rest

theorem takeAll_extends (n : Nat) (l : Linker (Owned φ)) (ts : List (Turn φ)) :
    l.Extends (takeAll n l ts) := by
  induction ts generalizing n l with
  | nil => exact .refl l
  | cons t ts ih =>
    have first : l.Extends (t.take n l).1.linker := Registrar.develops_extends.perform _ _
    exact first.trans (ih (n + 1) _)

theorem takeAll_append (n : Nat) (l : Linker (Owned φ)) (ts us : List (Turn φ)) :
    takeAll n l (ts ++ us) = takeAll (n + ts.length) (takeAll n l ts) us := by
  induction ts generalizing n l with
  | nil => rfl
  | cons t ts ih =>
    rw [List.cons_append, takeAll, ih, takeAll, List.length_cons, Nat.add_assoc, Nat.add_comm 1]

end Turn

def Linker.unowned (l : Linker φ) : Linker (Owned φ) := l.map fun func => ⟨none, func⟩

theorem Linker.unowned_below (l : Linker φ) : l.unowned.OwnedBelow 0 := by
  intro d member o owned
  obtain ⟨d, _, rfl⟩ := List.mem_map.mp member
  cases owned

def Turn.after (l : Linker φ) (before : List (Turn φ)) (t : Turn φ) :
    Registrar (Owned φ) × List (Except HostError Unit) :=
  t.take before.length (takeAll 0 l.unowned before)

/-- A binding names what the linker holds, from when it is made and for good, exactly when the linker
did not refuse its key. A key that was refused is bound all the same. So a registrar agrees with its
linker exactly when it was refused nothing. -/
theorem Turn.binding_agrees_iff (l : Linker φ) (before : List (Turn φ)) (t : Turn φ)
    (later : List (Turn φ)) :
    let r := (t.after l before).1
    let refused := Registrar.refusals (t.after l before).2
    let held := takeAll 0 l.unowned (before ++ t :: later)
    (∀ b ∈ r.bindings, held.owner? b.key = some ⟨before.length, b.shim⟩ ↔ b.key ∉ refused) ∧
    (∀ key ∈ refused, r.claims key = true ∧ ∃ b ∈ r.bindings, b.key = key) ∧
    (∀ key shim, r.shimFor? key = some shim →
      (held.owner? key = some ⟨before.length, shim⟩ ↔ key ∉ refused)) ∧
    ((∀ b ∈ r.bindings, held.owner? b.key = some ⟨before.length, b.shim⟩) ↔ refused = []) := by
  intro r refused held
  have accords : r.Accords before.length refused := by
    have below := takeAll_below l.unowned_below before
    rw [Nat.zero_add] at below
    exact take_accords below t
  -- Later turns only add to the linker.
  have grown : r.linker.Extends held := by
    have split : held = takeAll (before.length + 1) r.linker later := by
      simp only [held, takeAll_append, Nat.zero_add]
      rfl
    rw [split]
    exact takeAll_extends _ _ later
  have agrees : ∀ b ∈ r.bindings,
      held.owner? b.key = some ⟨before.length, b.shim⟩ ↔ b.key ∉ refused := by
    intro b member
    constructor
    · intro same taken
      obtain ⟨_, defined, other⟩ := accords.taken b.key taken
      rw [grown.owner? defined] at same
      exact other b.shim same
    · intro kept
      have same := accords.bound b member kept
      rw [grown.owner? (Linker.defines_of_owner? same)]
      exact same
  have stays : ∀ key ∈ refused, r.claims key = true ∧ ∃ b ∈ r.bindings, b.key = key := by
    intro key taken
    have claimed := (accords.taken key taken).1
    exact ⟨claimed, (r.claims_iff key).mp claimed⟩
  refine ⟨agrees, stays, ?_, ?_⟩
  · intro key shim named
    obtain ⟨b, found, rfl⟩ := Option.map_eq_some_iff.mp named
    have same : b.key = key := by simpa using List.find?_some found
    rw [← same]
    exact agrees b (List.mem_of_find?_eq_some found)
  · constructor
    · intro all
      rw [List.eq_nil_iff_forall_not_mem]
      intro key taken
      obtain ⟨b, member, rfl⟩ := (stays key taken).2
      exact (agrees b member).mp (all b member) taken
    · intro none b member
      rw [agrees b member, none]
      exact List.not_mem_nil

/-- The second of two registrars asks for a name that the first has used for another shim. The
linker refuses it, and the second registrar names its own shim under it nevertheless. -/
theorem Turn.refused_name_stays_bound :
    let first : Turn String := ⟨true, [.register "env" ["a", "x"] ⟨[.i32], [.i32]⟩ "f"]⟩
    let second : Turn String := ⟨true, [.register "env" ["b", "x"] ⟨[.i32], [.i32]⟩ "g"]⟩
    let x : Key := ⟨"env", "x"⟩
    (second.after {} [first]).2 = [.error (.link x.ns x.name (Linker.refusal x))] ∧
      (second.after {} [first]).1.claims x = true ∧
      (second.after {} [first]).1.shimFor? x = some "b" ∧
      (takeAll 0 (Linker.unowned {}) [first, second]).owner? x = some ⟨0, "a"⟩ :=
  ⟨rfl, rfl, rfl, rfl⟩

end GuestHost
