import GuestHost.Proofs.Registrations

/-!
Installing the host functions where any of their keys may be in use already. Main statement: all keys
are bound when every one of them is free, and otherwise the first that is not decides where
installing stops, with which error and what it leaves.
-/

namespace GuestHost

variable {φ : Type}

namespace Registrar

variable {r : Registrar φ} {xs done rest : List (Registration φ)} {x : Registration φ}

/-- The registrar has not claimed the key, and the linker holds nothing under it. -/
def Free (r : Registrar φ) (key : Key) : Prop :=
  r.claims key = false ∧ r.linker.defines key = false

instance (r : Registrar φ) (key : Key) : Decidable (r.Free key) :=
  inferInstanceAs (Decidable (_ ∧ _))

theorem defines_withAll (r : Registrar φ) (xs : List (Registration φ)) (key : Key) :
    (r.withAll xs).linker.defines key = true ↔
      r.linker.defines key = true ∨ ∃ x ∈ xs, x.binding.key = key := by
  simp [Linker.defines, Linker.find?, withAll, Registration.definition]

theorem claims_withAll_other {key : Key} (other : ∀ x ∈ xs, x.binding.key ≠ key) :
    (r.withAll xs).claims key = r.claims key := by
  rw [Bool.eq_iff_iff, claims_withAll]
  exact or_iff_left fun ⟨x, member, same⟩ => other x member same

theorem defines_withAll_other {key : Key} (other : ∀ x ∈ xs, x.binding.key ≠ key) :
    (r.withAll xs).linker.defines key = r.linker.defines key := by
  rw [Bool.eq_iff_iff, defines_withAll]
  exact or_iff_left fun ⟨x, member, same⟩ => other x member same

/-- How binding keys ends: with all of them bound, or at the first that is not free. A key that is
claimed is not bound again; one that only the linker holds is bound, and not defined. -/
inductive Ends (r : Registrar φ) (asked : List (Registration φ)) :
    Registrar φ × Except HostError Unit → Prop
  | all (free : ∀ x ∈ asked, r.Free x.binding.key) : Ends r asked (r.withAll asked, .ok ())
  | claimed {done rest : List (Registration φ)} {x : Registration φ}
      (split : asked = done ++ x :: rest) (free : ∀ y ∈ done, r.Free y.binding.key)
      (twice : r.claims x.binding.key = true) :
    Ends r asked
      (r.withAll done, .error (.duplicateImport x.binding.key.ns x.binding.key.name))
  | defined {done rest : List (Registration φ)} {x : Registration φ}
      (split : asked = done ++ x :: rest) (free : ∀ y ∈ done, r.Free y.binding.key)
      (new : r.claims x.binding.key = false) (taken : r.linker.defines x.binding.key = true) :
    Ends r asked ((r.withAll done).withBinding x.binding,
      .error (.link x.binding.key.ns x.binding.key.name (Linker.refusal x.binding.key)))

/-- What comes before the first key that is not free is bound, and then that key decides. -/
theorem bindEach_stops (distinct : ((done ++ x :: rest).map (·.binding.key)).Nodup)
    (free : ∀ y ∈ done, r.Free y.binding.key) (busy : ¬ r.Free x.binding.key) :
    r.Ends (done ++ x :: rest) (r.bindEach (done ++ x :: rest)) := by
  rw [List.map_append, List.map_cons, List.nodup_append] at distinct
  obtain ⟨before, _, apart⟩ := distinct
  have other : ∀ y ∈ done, y.binding.key ≠ x.binding.key :=
    fun y member => apart _ (List.mem_map_of_mem member) _ List.mem_cons_self
  have claims := claims_withAll_other (r := r) other
  have defines := defines_withAll_other (r := r) other
  have bound := (r.withAll done).bind_bound x
  rw [bindEach_append, bindEach_of_distinct before free]
  simp only [bindEach]
  generalize (r.withAll done).bind x.binding.key x.binding.shim x.type x.func = result at bound ⊢
  cases bound with
  | claimed twice => exact .claimed rfl free (claims ▸ twice)
  | refused new taken => exact .defined rfl free (claims ▸ new) (defines ▸ taken)
  | defined new unheld => exact absurd ⟨claims ▸ new, defines ▸ unheld⟩ busy

theorem bindEach_ends (distinct : (xs.map (·.binding.key)).Nodup) (r : Registrar φ) :
    r.Ends xs (r.bindEach xs) := by
  cases first : xs.find? fun x => ¬ r.Free x.binding.key with
  | none =>
    have free : ∀ x ∈ xs, r.Free x.binding.key := by simpa using first
    rw [bindEach_of_distinct distinct free]
    exact .all free
  | some x =>
    obtain ⟨busy, done, rest, rfl, free⟩ := List.find?_eq_some_iff_append.mp first
    exact bindEach_stops distinct (by simpa using free) (by simpa using busy)

theorem Ends.ok_iff {result : Registrar φ × Except HostError Unit} (ends : r.Ends xs result) :
    result.2 = .ok () ↔ ∀ x ∈ xs, r.Free x.binding.key := by
  cases ends with
  | all free => exact iff_of_true rfl free
  | claimed split free twice =>
    refine iff_of_false nofun fun all => ?_
    have new := (all _ (split ▸ List.mem_append_right _ List.mem_cons_self)).1
    exact absurd (twice.symm.trans new) (by decide)
  | defined split free new taken =>
    refine iff_of_false nofun fun all => ?_
    have unheld := (all _ (split ▸ List.mem_append_right _ List.mem_cons_self)).2
    exact absurd (taken.symm.trans unheld) (by decide)

/-- A registrar that begins with any linker, after any calls. It is asked for every host function
under each of its names, in order. Installing succeeds exactly when all these keys are free, and
otherwise it stops at the first that is not, whatever kind of function stands behind it. -/
theorem install_ends (l : Linker φ) (wasi : Bool) (calls : List (RegistrarCall φ))
    (embed : HostFunction → φ) :
    let r := (perform { wasi := wasi, linker := l } calls).1
    let asked := Registration.ofSet embed (HostFunction.set wasi)
    asked.map (·.binding) =
      (HostFunction.set wasi).flatMap (fun f => f.names.map fun name => ⟨⟨f.ns, name⟩, f.name⟩) ∧
    ((r.install embed).2 = .ok () ↔ ∀ x ∈ asked, r.Free x.binding.key) ∧
    r.Ends asked (r.install embed) := by
  intro r asked
  have distinct : (asked.map (·.binding.key)).Nodup := by
    rw [HostFunction.keys_ofSet]
    exact HostFunction.keys_distinct wasi
  have served : r.wasi = wasi := (develops_grown.perform calls _).2
  have ends : r.Ends asked (r.install embed) := by
    rw [install, registerAll_eq_bindEach, served]
    exact bindEach_ends distinct r
  refine ⟨?_, ends.ok_iff, ends⟩
  simp [asked, Registration.ofSet, Registration.ofNames, HostFunction.name, List.map_flatMap,
    Function.comp_def]

end Registrar

end GuestHost
