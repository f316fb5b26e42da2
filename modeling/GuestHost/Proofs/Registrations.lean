import GuestHost.Proofs.Installed
import Mathlib.Data.Finset.Dedup
import Mathlib.Data.Finset.Insert
import Mathlib.Data.List.Induction

/-!
A registrar through any sequence of calls, whatever they answer. Main statement: its bindings have
distinct keys, and these are the keys that it has claimed; bindings are only ever added, each by one
call and under the first name of its list; and a call that meets a key twice has done just what the
names before that key ask for.
-/

namespace GuestHost

variable {φ : Type}

structure NameList (φ : Type) where
  ns : String
  names : List String
  type : Wasm.FuncType
  func : φ

namespace NameList

def shim (x : NameList φ) : String := x.names.headD ""

def registrations (x : NameList φ) : List (Registration φ) :=
  Registration.ofNames x.ns x.names x.type x.func

def firsts (x : NameList φ) (names : List String) : List (Registration φ) :=
  names.map fun name => ⟨⟨⟨x.ns, name⟩, x.shim⟩, x.type, x.func⟩

end NameList

namespace RegistrarCall

def lists (wasi : Bool) : RegistrarCall φ → List (NameList φ)
  | register ns names type func => [⟨ns, names, type, func⟩]
  | install embed => (HostFunction.set wasi).map fun f => ⟨f.ns, f.names, f.type, embed f⟩

theorem registrations_eq_lists (wasi : Bool) (call : RegistrarCall φ) :
    call.registrations wasi = (call.lists wasi).flatMap (·.registrations) := by
  cases call with
  | register ns names type func => simp [registrations, lists, NameList.registrations]
  | install embed =>
    simp [registrations, lists, NameList.registrations, Registration.ofSet, List.flatMap_map]

theorem exists_list_of_mem {wasi : Bool} {call : RegistrarCall φ} {x : Registration φ}
    (member : x ∈ call.registrations wasi) :
    ∃ list ∈ call.lists wasi, x.binding.key.ns = list.ns ∧ x.binding.key.name ∈ list.names ∧
      x.binding.shim = list.shim := by
  rw [registrations_eq_lists, List.mem_flatMap] at member
  obtain ⟨list, given, member⟩ := member
  obtain ⟨name, named, rfl⟩ := List.mem_map.mp member
  exact ⟨list, given, rfl, named, rfl⟩

end RegistrarCall

/-! Claimed keys on their own -/

/-- A registrar beside the keys that it has claimed. Whether a key is new is looked up in the set
alone; a key goes into the set before it is bound, and stays there when the linker refuses it. -/
structure Ledger (φ : Type) where
  registrar : Registrar φ
  claimed : Finset Key

namespace Ledger

def fresh (wasi : Bool) (l : Linker φ) : Ledger φ := ⟨{ wasi := wasi, linker := l }, ∅⟩

def bind (l : Ledger φ) (x : Registration φ) : Ledger φ × Except HostError Unit :=
  if x.binding.key ∈ l.claimed then
    (l, .error (.duplicateImport x.binding.key.ns x.binding.key.name))
  else
    let l : Ledger φ := ⟨l.registrar.withBinding x.binding, insert x.binding.key l.claimed⟩
    match l.registrar.linker.define x.definition with
    | .ok linker => ({ l with registrar := { l.registrar with linker := linker } }, .ok ())
    | .error reason => (l, .error (.link x.binding.key.ns x.binding.key.name reason))

def bindEach : List (Registration φ) → Ledger φ → Ledger φ × Except HostError Unit
  | [], l => (l, .ok ())
  | x :: xs, l =>
    match l.bind x with
    | (l, .ok ()) => bindEach xs l
    | (l, .error e) => (l, .error e)

def perform (l : Ledger φ) : List (RegistrarCall φ) → Ledger φ × List (Except HostError Unit)
  | [] => (l, [])
  | call :: calls =>
    let (l, answer) := l.bindEach (call.registrations l.registrar.wasi)
    let (l, answers) := l.perform calls
    (l, answer :: answers)

def keys (r : Registrar φ) : Finset Key := (r.bindings.map (·.key)).toFinset

theorem mem_keys (r : Registrar φ) (key : Key) : key ∈ keys r ↔ r.claims key = true := by
  simp [keys, Registrar.claims]

theorem keys_withBinding (r : Registrar φ) (b : Binding) :
    keys (r.withBinding b) = insert b.key (keys r) := by
  ext key
  rw [mem_keys, Registrar.claims_withBinding, Finset.mem_insert, mem_keys, or_comm, eq_comm]

theorem bind_keys (r : Registrar φ) (x : Registration φ) :
    bind ⟨r, keys r⟩ x =
      let after := r.bind x.binding.key x.binding.shim x.type x.func
      (⟨after.1, keys after.1⟩, after.2) := by
  have bound := r.bind_bound x
  unfold bind
  generalize r.bind x.binding.key x.binding.shim x.type x.func = result at bound ⊢
  cases bound with
  | claimed twice => rw [if_pos ((mem_keys r _).mpr twice)]
  | refused new taken =>
    have unlisted : x.binding.key ∉ keys r := by simp [mem_keys, new]
    have refused : r.linker.define x.definition = .error (Linker.refusal x.binding.key) :=
      if_pos taken
    simp only [if_neg unlisted, Registrar.withBinding, refused]
    rw [← keys_withBinding]
    rfl
  | defined new free =>
    have unlisted : x.binding.key ∉ keys r := by simp [mem_keys, new]
    have defined : r.linker.define x.definition = .ok (r.linker.add x.definition) :=
      if_neg (by simpa [Registration.definition] using free)
    simp only [if_neg unlisted, Registrar.withBinding, defined]
    rw [← keys_withBinding]
    rfl

theorem bindEach_keys (xs : List (Registration φ)) (r : Registrar φ) :
    bindEach xs ⟨r, keys r⟩ =
      let after := r.bindEach xs
      (⟨after.1, keys after.1⟩, after.2) := by
  induction xs generalizing r with
  | nil => rfl
  | cons x xs ih =>
    rw [bindEach, Registrar.bindEach, bind_keys]
    rcases r.bind x.binding.key x.binding.shim x.type x.func with ⟨r', _ | _⟩
    · rfl
    · exact ih r'

theorem perform_keys (calls : List (RegistrarCall φ)) (r : Registrar φ) :
    perform ⟨r, keys r⟩ calls =
      let after := r.perform calls
      (⟨after.1, keys after.1⟩, after.2) := by
  induction calls generalizing r with
  | nil => rfl
  | cons call calls ih =>
    have first : bindEach (call.registrations r.wasi) ⟨r, keys r⟩ =
        (⟨(call.on r).1, keys (call.on r).1⟩, (call.on r).2) := by
      rw [call.on_eq_bindEach, bindEach_keys]
    simp only [perform, Registrar.perform, first, ih]

end Ledger

/-! What one call keeps, and what a sequence of calls keeps -/

namespace Registrar

variable {r r' : Registrar φ}

/-- Keys that are claimed are defined, and none is claimed twice. -/
structure Orderly (r : Registrar φ) : Prop where
  distinct : (r.bindings.map (·.key)).Nodup
  defined : ∀ key, r.claims key = true → r.linker.defines key = true

theorem Orderly.fresh (wasi : Bool) (l : Linker φ) :
    Orderly { wasi := wasi, linker := l } where
  distinct := List.nodup_nil
  defined key claimed := by cases claimed

theorem Orderly.withBinding (h : r.Orderly) {b : Binding} (new : r.claims b.key = false)
    {l : Linker φ} (grown : r.linker.Extends l) (held : l.defines b.key = true) :
    Orderly { r.withBinding b with linker := l } where
  distinct := by
    have unlisted : b.key ∉ r.bindings.map (·.key) := by
      intro member
      obtain ⟨c, member, same⟩ := List.mem_map.mp member
      have claimed := (r.claims_iff b.key).mpr ⟨c, member, same⟩
      rw [new] at claimed
      cases claimed
    simp only [Registrar.withBinding, List.map_append, List.map_cons, List.map_nil]
    refine List.nodup_append.mpr ⟨h.distinct, List.nodup_singleton _, ?_⟩
    intro key member other single same
    obtain rfl := List.mem_singleton.mp single
    exact unlisted (same ▸ member)
  defined key claimed := by
    rcases (claims_withBinding r b key).mp claimed with old | rfl
    · obtain ⟨d, found⟩ := Option.isSome_iff_exists.mp (h.defined key old)
      exact Option.isSome_iff_exists.mpr ⟨d, grown.find? found⟩
    · exact held

theorem develops_orderly : Develops fun r r' : Registrar φ => r.Orderly → r'.Orderly where
  refl _ := id
  trans first second := second ∘ first
  refused new taken h := h.withBinding new (.refl _) taken
  defined _ _ new _ h :=
    h.withBinding new (Linker.extends_add _ _) ((Linker.defines_add _ _ _).mpr (.inr rfl))

/-- Bindings are added at the end, and what is served stays the same. -/
theorem develops_grown : Develops fun r r' : Registrar φ =>
    r.bindings <+: r'.bindings ∧ r'.wasi = r.wasi where
  refl _ := ⟨List.prefix_refl _, rfl⟩
  trans first second := ⟨first.1.trans second.1, second.2.trans first.2⟩
  refused _ _ := ⟨List.prefix_append _ _, rfl⟩
  defined _ _ _ _ := ⟨List.prefix_append _ _, rfl⟩

/-- Up to a key that is met twice everything has been bound, and nothing has been done since. -/
theorem bindEach_duplicate {xs : List (Registration φ)} {ns name : String}
    (failed : r.bindEach xs = (r', .error (.duplicateImport ns name))) :
    ∃ done x rest, xs = done ++ x :: rest ∧ x.binding.key = ⟨ns, name⟩ ∧
      r.bindEach done = (r', .ok ()) ∧ r'.claims ⟨ns, name⟩ = true := by
  induction xs generalizing r with
  | nil => cases failed
  | cons x xs ih =>
    have bound := r.bind_bound x
    rw [bindEach] at failed
    generalize result_eq : r.bind x.binding.key x.binding.shim x.type x.func = result
      at bound failed
    cases bound with
    | claimed twice =>
      cases failed
      exact ⟨[], x, xs, rfl, rfl, rfl, twice⟩
    | refused new taken => cases failed
    | defined new free =>
      obtain ⟨done, y, rest, rfl, key, ok, claimed⟩ := ih failed
      refine ⟨x :: done, y, rest, rfl, key, ?_, claimed⟩
      rw [bindEach, result_eq]
      exact ok

theorem claims_withAll (r : Registrar φ) (xs : List (Registration φ)) (key : Key) :
    (r.withAll xs).claims key = true ↔
      r.claims key = true ∨ ∃ x ∈ xs, x.binding.key = key := by
  simp [claims, withAll]

theorem checkImports_of_grown (grown : r.bindings <+: r'.bindings) (wasi : r'.wasi = r.wasi)
    {imports : List Wasm.Import} (accepted : r.checkImports imports = .ok ()) :
    r'.checkImports imports = .ok () := by
  have none : imports.find? (fun i => r'.serves i.ns && (r'.shimFor? ⟨i.ns, i.name⟩).isNone) =
      none := by
    unfold checkImports at accepted
    split at accepted
    · cases accepted
    · rename_i all
      rw [List.find?_eq_none] at all ⊢
      intro i member missing
      apply all i member
      have serves : r'.serves i.ns = r.serves i.ns := by rw [Registrar.serves, Registrar.serves, wasi]
      rw [serves, Bool.and_eq_true] at missing
      rw [Bool.and_eq_true]
      refine ⟨missing.1, ?_⟩
      rw [Option.isNone_iff_eq_none, Option.eq_none_iff_forall_not_mem]
      intro shim found
      rw [shimFor?_of_grown grown found] at missing
      cases missing.2
  rw [checkImports, none]

theorem Orderly.filter_key (h : r.Orderly) {b : Binding} (member : b ∈ r.bindings) :
    r.bindings.filter (·.key = b.key) = [b] := by
  have distinct := h.distinct
  generalize r.bindings = bs at member distinct
  induction bs with
  | nil => cases member
  | cons c bs ih =>
    rw [List.map_cons, List.nodup_cons] at distinct
    rcases List.mem_cons.mp member with rfl | later
    · have others : bs.filter (·.key = b.key) = [] := by
        rw [List.filter_eq_nil_iff]
        intro c member same
        exact distinct.1 (of_decide_eq_true same ▸ List.mem_map_of_mem member)
      rw [List.filter_cons_of_pos (by simp), others]
    · have other : ¬ c.key = b.key := by
        intro same
        exact distinct.1 (same ▸ List.mem_map_of_mem later)
      rw [List.filter_cons_of_neg (by simpa using other)]
      exact ih later distinct.2

theorem Orderly.shimFor?_eq_some_iff (h : r.Orderly) (key : Key) (shim : String) :
    r.shimFor? key = some shim ↔ r.bindings.filter (·.key = key) = [⟨key, shim⟩] := by
  constructor
  · intro named
    obtain ⟨b, found, rfl⟩ := Option.map_eq_some_iff.mp named
    obtain rfl : b.key = key := by simpa using List.find?_some found
    exact h.filter_key (List.mem_of_find?_eq_some found)
  · intro one
    rw [shimFor?, ← List.head?_filter, one]
    rfl

theorem perform_append (calls more : List (RegistrarCall φ)) (r : Registrar φ) :
    (r.perform (calls ++ more)).1 = ((r.perform calls).1.perform more).1 := by
  induction calls generalizing r with
  | nil => rfl
  | cons call calls ih => exact ih (call.on r).1

/-- Some call of the sequence claimed the key, and it stands under the first name of a list of that
call that holds its own. -/
def ClaimedBy (start : Registrar φ) (calls : List (RegistrarCall φ)) (b : Binding) : Prop :=
  ∃ before call after, calls = before ++ call :: after ∧
    (start.perform before).1.claims b.key = false ∧
    (start.perform (before ++ [call])).1.claims b.key = true ∧
    ∃ list ∈ call.lists start.wasi, b.key.ns = list.ns ∧ b.key.name ∈ list.names ∧
      b.shim = list.shim

theorem claimedBy_of_mem {start : Registrar φ} (h : start.Orderly) (none : start.bindings = [])
    (calls : List (RegistrarCall φ)) {b : Binding}
    (member : b ∈ (start.perform calls).1.bindings) : start.ClaimedBy calls b := by
  induction calls using List.reverseRecOn with
  | nil =>
    rw [perform, none] at member
    cases member
  | append_singleton calls call ih =>
    -- What the last call adds is new, for no key is bound twice.
    have distinct := (develops_orderly.perform (calls ++ [call]) start h).distinct
    have claimed := (claims_iff _ _).mpr ⟨b, member, rfl⟩
    obtain ⟨taken, early, added⟩ :=
      bindEach_bindings (call.registrations start.wasi) (start.perform calls).1
    have last : (start.perform (calls ++ [call])).1.bindings =
        (start.perform calls).1.bindings ++ taken.map (·.binding) := by
      rw [perform_append, ← added, ← (develops_grown.perform calls start).2, ← call.on_eq_bindEach]
      rfl
    rw [last] at member distinct
    rcases List.mem_append.mp member with old | new
    · obtain ⟨before, first, after, rfl, unclaimed, later⟩ := ih old
      exact ⟨before, first, after ++ [call], by simp, unclaimed, later⟩
    · refine ⟨calls, call, [], rfl, ?_, claimed, ?_⟩
      · rw [← Bool.not_eq_true, claims_iff]
        rintro ⟨c, old, same⟩
        rw [List.map_append, List.nodup_append] at distinct
        exact distinct.2.2 _ (List.mem_map_of_mem old) _ (List.mem_map_of_mem new) same
      · obtain ⟨x, bound, rfl⟩ := List.mem_map.mp new
        exact RegistrarCall.exists_list_of_mem (early.subset bound)

/-- How a call ends that meets a key twice. Everything that its lists ask for before that name has
been done, and nothing else; and what the linker held it holds. -/
def StoppedAt (r r' : Registrar φ) (call : RegistrarCall φ) (ns name : String) : Prop :=
  ∃ (done rest : List (NameList φ)) (list : NameList φ) (before after : List String),
    call.lists r.wasi = done ++ list :: rest ∧ list.ns = ns ∧
    list.names = before ++ name :: after ∧
    r.bindEach (done.flatMap (·.registrations) ++ list.firsts before) = (r', .ok ()) ∧
    (∀ earlier ∈ before, r'.shimFor? ⟨ns, earlier⟩ = some list.shim ∧
      r'.linker.find? ⟨ns, earlier⟩ = some ⟨⟨ns, earlier⟩, list.type, list.func⟩) ∧
    (name ∈ before ∨ r.claims ⟨ns, name⟩ = true ∧
      ∃ d, r.linker.find? ⟨ns, name⟩ = some d ∧ r'.linker.find? ⟨ns, name⟩ = some d)

end Registrar

namespace NameList

def Place (lists : List (NameList φ)) (done : List (Registration φ)) (x : Registration φ) : Prop :=
  ∃ (first last : List (NameList φ)) (list : NameList φ) (before after : List String)
    (name : String), lists = first ++ list :: last ∧ list.names = before ++ name :: after ∧
      x = ⟨⟨⟨list.ns, name⟩, list.shim⟩, list.type, list.func⟩ ∧
      done = first.flatMap (·.registrations) ++ list.firsts before

theorem Place.cons {lists : List (NameList φ)} {done : List (Registration φ)} {x : Registration φ}
    (place : Place lists done x) (list : NameList φ) :
    Place (list :: lists) (list.registrations ++ done) x := by
  obtain ⟨first, last, other, before, after, name, rfl, names, x_eq, rfl⟩ := place
  exact ⟨list :: first, last, other, before, after, name, rfl, names, x_eq, by simp⟩

theorem place_of_split {lists : List (NameList φ)} {done rest : List (Registration φ)}
    {x : Registration φ} (split : lists.flatMap (·.registrations) = done ++ x :: rest) :
    Place lists done x := by
  induction lists generalizing done with
  | nil => simp at split
  | cons list lists ih =>
    rw [List.flatMap_cons, List.append_eq_append_iff] at split
    rcases split with ⟨more, rfl, split⟩ | ⟨more, here, split⟩
    · exact (ih split).cons list
    · cases more with
      | nil =>
        obtain rfl : list.registrations = done := by simpa using here
        have place : Place lists [] x := ih split.symm
        simpa using place.cons list
      | cons y more =>
        obtain ⟨rfl, rfl⟩ := List.cons.inj split
        obtain ⟨before, others, names, rfl, at_x⟩ := List.map_eq_append_iff.mp here
        obtain ⟨name, after, rfl, rfl, rfl⟩ := List.map_eq_cons_iff.mp at_x
        exact ⟨[], lists, list, before, after, name, rfl, names, rfl, rfl⟩

end NameList

theorem RegistrarCall.lists_apart (wasi : Bool) (call : RegistrarCall φ)
    {done rest : List (NameList φ)} {list : NameList φ}
    (split : call.lists wasi = done ++ list :: rest) {name : String} (named : name ∈ list.names)
    {x : Registration φ} (member : x ∈ done.flatMap (·.registrations)) :
    x.binding.key ≠ ⟨list.ns, name⟩ := by
  cases call with
  | register ns names type func =>
    cases done with
    | nil => cases member
    | cons _ done => cases done <;> cases split
  | install embed =>
    intro same
    have distinct := HostFunction.keys_distinct wasi
    rw [← HostFunction.keys_ofSet embed, show Registration.ofSet embed (HostFunction.set wasi) =
      _ from registrations_eq_lists wasi (install embed), split, List.flatMap_append,
      List.flatMap_cons, List.map_append, List.nodup_append] at distinct
    refine distinct.2.2 _ (List.mem_map_of_mem member) ⟨list.ns, name⟩ ?_ same
    rw [List.map_append, List.mem_append]
    refine .inl (List.mem_map.mpr ⟨⟨⟨⟨list.ns, name⟩, list.shim⟩, list.type, list.func⟩, ?_, rfl⟩)
    exact List.mem_map.mpr ⟨name, named, rfl⟩

namespace Registrar

variable {r r' : Registrar φ}

theorem Orderly.stoppedAt (h : r.Orderly) {call : RegistrarCall φ} {ns name : String}
    (failed : call.on r = (r', .error (.duplicateImport ns name))) :
    r.StoppedAt r' call ns name := by
  rw [call.on_eq_bindEach] at failed
  obtain ⟨done, x, rest, split, key, ok, claimed⟩ := bindEach_duplicate failed
  rw [RegistrarCall.registrations_eq_lists] at split
  obtain ⟨first, last, list, before, after, _, lists, names, rfl, rfl⟩ :=
    NameList.place_of_split split
  cases key
  refine ⟨first, last, list, before, after, lists, rfl, names, ok, ?_, ?_⟩
  · intro earlier member
    have asked : ⟨⟨⟨list.ns, earlier⟩, list.shim⟩, list.type, list.func⟩ ∈
        first.flatMap (·.registrations) ++ list.firsts before :=
      List.mem_append_right _ (List.mem_map.mpr ⟨earlier, member, rfl⟩)
    exact (find?_of_bindEach ok asked).symm
  · rw [bindEach_of_ok ok, claims_withAll] at claimed
    rcases claimed with old | ⟨y, member, same⟩
    · obtain ⟨d, found⟩ := Option.isSome_iff_exists.mp (h.defined _ old)
      have grown := develops_extends.bindEach
        (first.flatMap (·.registrations) ++ list.firsts before) r
      rw [ok] at grown
      exact .inr ⟨old, d, found, grown.find? found⟩
    · rcases List.mem_append.mp member with other | own
      · have named : name ∈ list.names := by simp [names]
        exact absurd same (call.lists_apart r.wasi lists named other)
      · obtain ⟨earlier, early, rfl⟩ := List.mem_map.mp own
        cases same
        exact .inl early

/-- A registrar that begins with any linker, after any calls. No key is bound twice, and the claimed
keys are those of the bindings; a key has a shim exactly when there is one binding under it, and some
call claimed it under the first name of a list. Whatever is called next, and however it goes,
bindings are only added to the end and imports that were accepted still are; and a call that meets a
key twice stops right there. -/
theorem perform_keeps (l : Linker φ) (wasi : Bool) (calls : List (RegistrarCall φ)) :
    let start : Registrar φ := { wasi := wasi, linker := l }
    let r := (start.perform calls).1
    (r.bindings.map (·.key)).Nodup ∧
    ((Ledger.fresh wasi l).perform calls).1 = ⟨r, (r.bindings.map (·.key)).toFinset⟩ ∧
    ((Ledger.fresh wasi l).perform calls).2 = (start.perform calls).2 ∧
    (∀ key shim, r.shimFor? key = some shim ↔ r.bindings.filter (·.key = key) = [⟨key, shim⟩]) ∧
    (∀ b ∈ r.bindings, start.ClaimedBy calls b) ∧
    (∀ more, r.bindings <+: (r.perform more).1.bindings ∧
      ∀ imports, r.checkImports imports = .ok () →
        (r.perform more).1.checkImports imports = .ok ()) ∧
    ∀ call r' ns name, call.on r = (r', .error (.duplicateImport ns name)) →
      r.StoppedAt r' call ns name := by
  intro start r
  have fresh : start.Orderly := .fresh wasi l
  have orderly : r.Orderly := develops_orderly.perform calls start fresh
  have ledger := Ledger.perform_keys calls start
  refine ⟨orderly.distinct, congrArg Prod.fst ledger, congrArg Prod.snd ledger,
    orderly.shimFor?_eq_some_iff, fun b => claimedBy_of_mem fresh rfl calls, fun more => ?_,
    fun call r' ns name => orderly.stoppedAt⟩
  obtain ⟨grown, same⟩ := develops_grown.perform more r
  exact ⟨grown, fun imports => checkImports_of_grown grown same⟩

end Registrar

end GuestHost
