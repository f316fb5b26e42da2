import GuestHost.Guest.Basic
import GuestHost.Proofs.Bindings

/-!
What a registrar has put where once it was refused nothing: one definition and one binding for each
key, in order. The host functions have distinct keys, so on a fresh linker they can all be
installed.
-/

namespace GuestHost

variable {φ : Type}

def Registration.definition (x : Registration φ) : Definition φ := ⟨x.binding.key, x.type, x.func⟩

namespace Linker

theorem defines_add (l : Linker φ) (d : Definition φ) (key : Key) :
    (l.add d).defines key = true ↔ l.defines key = true ∨ d.key = key := by
  simp only [defines, find?, add, List.find?_append, List.find?_singleton]
  cases l.definitions.find? (·.key = key) with
  | some found => simp
  | none => by_cases same : d.key = key <;> simp [same]

end Linker

namespace Registrar

theorem shimFor?_isSome (r : Registrar φ) (key : Key) :
    (r.shimFor? key).isSome = true ↔ r.claims key = true := by
  simp [shimFor?, claims]

theorem shimFor?_of_grown {r r' : Registrar φ} (grown : r.bindings <+: r'.bindings) {key : Key}
    {shim : String} (found : r.shimFor? key = some shim) : r'.shimFor? key = some shim := by
  obtain ⟨more, grown⟩ := grown
  obtain ⟨b, first, rfl⟩ := Option.map_eq_some_iff.mp found
  rw [shimFor?, ← grown, List.find?_append, first]
  rfl

/-- All keys are bound up to the first that is refused, and that one may be bound too. -/
theorem bindEach_bindings (xs : List (Registration φ)) (r : Registrar φ) :
    ∃ taken, taken <+: xs ∧
      (bindEach xs r).1.bindings = r.bindings ++ taken.map (·.binding) := by
  induction xs generalizing r with
  | nil => exact ⟨[], List.prefix_refl _, by simp [bindEach]⟩
  | cons x xs ih =>
    have bound := r.bind_bound x
    rw [bindEach]
    generalize r.bind x.binding.key x.binding.shim x.type x.func = result at bound ⊢
    cases bound with
    | claimed twice => exact ⟨[], List.nil_prefix, by simp⟩
    | refused new taken => exact ⟨[x], ⟨xs, rfl⟩, rfl⟩
    | defined new free =>
      obtain ⟨taken, early, rest⟩ := ih { r.withBinding x.binding with
        linker := r.linker.add ⟨x.binding.key, x.type, x.func⟩ }
      refine ⟨x :: taken, List.cons_prefix_cons.mpr ⟨rfl, early⟩, ?_⟩
      simpa [withBinding] using rest

theorem bindEach_grows (xs : List (Registration φ)) (r : Registrar φ) :
    r.bindings <+: (bindEach xs r).1.bindings := by
  obtain ⟨taken, _, same⟩ := bindEach_bindings xs r
  exact ⟨taken.map (·.binding), same.symm⟩

def withAll (r : Registrar φ) (xs : List (Registration φ)) : Registrar φ :=
  { r with
    linker := ⟨r.linker.definitions ++ xs.map (·.definition)⟩
    bindings := r.bindings ++ xs.map (·.binding) }

theorem bindEach_of_ok {xs : List (Registration φ)} {r r' : Registrar φ}
    (ok : bindEach xs r = (r', .ok ())) : r' = r.withAll xs := by
  induction xs generalizing r with
  | nil =>
    cases ok
    simp [withAll]
  | cons x xs ih =>
    have bound := r.bind_bound x
    rw [bindEach] at ok
    generalize r.bind x.binding.key x.binding.shim x.type x.func = result at bound ok
    cases bound with
    | claimed twice => cases ok
    | refused new taken => cases ok
    | defined new free =>
      rw [ih ok]
      simp [withAll, withBinding, Linker.add, Registration.definition]

/-- Keys that are distinct and new to both sides are not refused. -/
theorem bindEach_of_distinct {xs : List (Registration φ)} {r : Registrar φ}
    (distinct : (xs.map (·.binding.key)).Nodup)
    (new : ∀ x ∈ xs, r.claims x.binding.key = false ∧ r.linker.defines x.binding.key = false) :
    bindEach xs r = (r.withAll xs, .ok ()) := by
  suffices ok : (bindEach xs r).2 = .ok () by
    have bound : bindEach xs r = ((bindEach xs r).1, .ok ()) := by rw [← ok]
    rw [bound, bindEach_of_ok bound]
  induction xs generalizing r with
  | nil => rfl
  | cons x xs ih =>
    rw [List.map_cons, List.nodup_cons] at distinct
    obtain ⟨⟨unclaimed, free⟩, rest⟩ := List.forall_mem_cons.mp new
    have bound := r.bind_bound x
    rw [bindEach]
    generalize r.bind x.binding.key x.binding.shim x.type x.func = result at bound ⊢
    cases bound with
    | claimed twice => exact absurd (twice.symm.trans unclaimed) (by decide)
    | refused _ taken => exact absurd (taken.symm.trans free) (by decide)
    | defined =>
      -- No key behind this one is the one that was just bound, so all of them are new still.
      apply ih distinct.2
      intro y member
      have other : x.binding.key ≠ y.binding.key := by
        intro same
        exact distinct.1 (same ▸ List.mem_map_of_mem member)
      obtain ⟨unclaimed', free'⟩ := rest y member
      constructor
      · rw [← Bool.not_eq_true] at unclaimed' ⊢
        intro claimed
        rcases (claims_withBinding r x.binding y.binding.key).mp claimed with old | same
        · exact unclaimed' old
        · exact other same
      · rw [← Bool.not_eq_true] at free' ⊢
        intro taken
        rcases (r.linker.defines_add _ _).mp taken with old | same
        · exact free' old
        · exact other same

theorem find?_of_bindEach {xs : List (Registration φ)} {r r' : Registrar φ}
    (ok : bindEach xs r = (r', .ok ())) {x : Registration φ} (member : x ∈ xs) :
    r'.linker.find? x.binding.key = some x.definition ∧
      r'.shimFor? x.binding.key = some x.binding.shim := by
  induction xs generalizing r with
  | nil => cases member
  | cons y xs ih =>
    have bound := r.bind_bound y
    rw [bindEach] at ok
    generalize r.bind y.binding.key y.binding.shim y.type y.func = result at bound ok
    cases bound with
    | claimed twice => cases ok
    | refused new taken => cases ok
    | defined new free =>
      rcases List.mem_cons.mp member with rfl | later
      · change bindEach xs _ = _ at ok
        have linked := develops_extends.bindEach xs { r.withBinding x.binding with
          linker := r.linker.add ⟨x.binding.key, x.type, x.func⟩ }
        have listed := bindEach_grows xs { r.withBinding x.binding with
          linker := r.linker.add ⟨x.binding.key, x.type, x.func⟩ }
        rw [ok] at linked listed
        refine ⟨linked.find? (Linker.find?_add_self free), shimFor?_of_grown listed ?_⟩
        have unnamed : r.bindings.find? (·.key = x.binding.key) = none := by
          simpa [claims] using new
        simp [shimFor?, withBinding, List.find?_append, unnamed]
      · exact ih ok later

theorem checkImports_eq_ok_iff (r : Registrar φ) (imports : List Wasm.Import) :
    r.checkImports imports = .ok () ↔
      ∀ i ∈ imports, r.serves i.ns = true → r.claims ⟨i.ns, i.name⟩ = true := by
  unfold checkImports
  split
  · rename_i i found
    refine iff_of_false (fun accepted => nomatch accepted) fun all => ?_
    have missing := List.find?_some found
    rw [Bool.and_eq_true, Option.isNone_iff_eq_none] at missing
    have bound := all i (List.mem_of_find?_eq_some found) missing.1
    rw [← shimFor?_isSome, missing.2] at bound
    cases bound
  · rename_i none
    rw [List.find?_eq_none] at none
    refine iff_of_true rfl fun i member served => ?_
    have bound := none i member
    rw [← shimFor?_isSome]
    simpa [served, ← Option.isSome_iff_ne_none] using bound

end Registrar

namespace HostFunction

def registrations (withWasi : Bool) : List (Registration HostFunction) :=
  Registration.ofSet id (set withWasi)

theorem registrations_true :
    registrations true =
      registrations false ++ Registration.ofSet id (WasiCall.all.map wasi) := by
  simp [registrations, Registration.ofSet, set]

def keys (withWasi : Bool) : List Key :=
  (set withWasi).flatMap fun f => f.names.map fun name => ⟨f.ns, name⟩

theorem keys_distinct (withWasi : Bool) : (keys withWasi).Nodup := by
  have all : (keys true).Nodup := by decide +kernel
  cases withWasi with
  | true => exact all
  | false =>
    have split : keys true = keys false ++
        (WasiCall.all.map wasi).flatMap fun f => f.names.map fun name => ⟨f.ns, name⟩ := by
      simp [keys, set]
    rw [split] at all
    exact (List.nodup_append.mp all).1

theorem keys_ofSet (embed : HostFunction → φ) (withWasi : Bool) :
    (Registration.ofSet embed (set withWasi)).map (·.binding.key) = keys withWasi := by
  simp [Registration.ofSet, Registration.ofNames, keys, List.map_flatMap, Function.comp_def]

/-- A function of the set has the name in the namespace. -/
def Offered (withWasi : Bool) (key : Key) : Prop :=
  ∃ f ∈ set withWasi, f.ns = key.ns ∧ key.name ∈ f.names

theorem offered_iff_mem_keys (withWasi : Bool) (key : Key) :
    Offered withWasi key ↔ key ∈ keys withWasi := by
  simp only [Offered, keys, List.mem_flatMap, List.mem_map]
  constructor
  · rintro ⟨f, member, same, named⟩
    exact ⟨f, member, key.name, named, by rw [same]⟩
  · rintro ⟨f, member, name, named, rfl⟩
    exact ⟨f, member, rfl, named⟩

end HostFunction

namespace Guest

/-- The registrar of a guest is refused nothing. -/
theorem registrar_eq (c : Config) :
    registrar c =
      (Registrar.withAll { wasi := c.wasi, linker := {} } (HostFunction.registrations c.wasi),
        .ok ()) := by
  rw [registrar, Registrar.install, Registrar.registerAll_eq_bindEach]
  refine Registrar.bindEach_of_distinct ?_ fun x _ => ⟨rfl, rfl⟩
  rw [HostFunction.keys_ofSet]
  exact HostFunction.keys_distinct c.wasi

theorem registrar_ok (c : Config) : registrar c = ((registrar c).1, .ok ()) := by
  rw [registrar_eq]

theorem registrar_claims (c : Config) (key : Key) :
    (registrar c).1.claims key = true ↔ HostFunction.Offered c.wasi key := by
  rw [HostFunction.offered_iff_mem_keys, ← HostFunction.keys_ofSet id, registrar_eq]
  simp [Registrar.claims, Registrar.withAll, HostFunction.registrations]

theorem registrar_defines (c : Config) (key : Key) :
    (registrar c).1.linker.defines key = true ↔ HostFunction.Offered c.wasi key := by
  rw [HostFunction.offered_iff_mem_keys, ← HostFunction.keys_ofSet id, registrar_eq]
  simp [Linker.defines, Linker.find?, Registrar.withAll, HostFunction.registrations,
    Registration.definition]

/-- What is installed stands under its own type, in its namespace and under one of its names. -/
theorem installed_of_find? {c : Config} {key : Key} {d : Definition HostFunction}
    (found : (registrar c).1.linker.find? key = some d) :
    d.type = d.func.type ∧ key.ns = d.func.ns ∧ key.name ∈ d.func.names := by
  have same : d.key = key := of_decide_eq_true (List.find?_some found :)
  rw [registrar_eq] at found
  have member : d ∈ (HostFunction.registrations c.wasi).map (·.definition) :=
    List.mem_of_find?_eq_some found
  simp only [HostFunction.registrations, Registration.ofSet, Registration.ofNames, List.mem_map,
    List.mem_flatMap] at member
  obtain ⟨x, ⟨f, _, name, named, rfl⟩, rfl⟩ := member
  subst same
  exact ⟨rfl, rfl, named⟩

end Guest

end GuestHost
