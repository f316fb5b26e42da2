import GuestHost.Proofs.ExitStatus
import GuestHost.Proofs.Isolation
import GuestHost.Proofs.RecordedCongruence

/-!
Guests that an embedder can come to hold. Main statement: whatever was done in a session, the images
of its guests were linked from valid modules, since no step changes them; so they are well formed.
-/

namespace GuestHost

open Wasm (Module Export)

/-- Host functions stand under their types, and exported functions are there. -/
structure Image.WellFormed (i : Image) : Prop where
  honest : i.Honest
  exported : ∀ e ∈ i.exports, e.kind = .func → e.index < i.code.length

theorem Wasm.Module.index_lt_of_isValid {m : Module} (valid : m.isValid = true) {e : Export}
    (member : e ∈ m.exports) : e.index < m.count e.kind := by
  have exports : m.exports.all (fun e => e.index < m.count e.kind) = true := by
    simp only [isValid, Bool.and_eq_true] at valid
    exact valid.1.1.1.1.2
  simpa using List.all_eq_true.mp exports e member

/-- The image was linked from a valid module to the host functions of a configuration. -/
structure Image.LinkedFrom (m : Module) (c : Config) (i : Image) : Prop where
  valid : m.isValid = true
  linked : link m (Guest.registrar c).1.linker = .ok i

theorem Image.LinkedFrom.wellFormed {m : Module} {c : Config} {image : Image}
    (made : image.LinkedFrom m c) : image.WellFormed := by
  refine ⟨honest_of_link made.linked, fun e member func => ?_⟩
  obtain ⟨ds, found, rfl⟩ := link_eq_ok_iff.mp made.linked
  have below := Module.index_lt_of_isValid made.valid member
  have imports : m.importedFuncs.length ≤ ds.length := by
    rw [← found.length_eq]
    exact List.length_filterMap_le _ _
  rw [func, Module.count, Module.funcTypes, List.length_append, List.length_map] at below
  rw [List.length_append, List.length_map, List.length_map]
  omega

namespace Guest

theorem always_call_image (g : Guest) (name : String) (args : List (BitVec 64)) :
    (g.call name args).Always fun x => x.2.image = g.image := by
  rw [call_eq]
  cases g.prepare name args with
  | error e => exact rfl
  | ok run => exact (Action.always_bind _ _ _).mpr (Action.always_of_forall _ fun _ => rfl)

def MadeFrom (m : Option Module) (c : Config) (r : Except GuestError Guest) : Prop :=
  ∀ g, r = .ok g → ∃ m', m = some m' ∧ g.image.LinkedFrom m' c

variable {m : Module} {c : Config}

theorem MadeFrom.error (m : Option Module) (c : Config) (e : GuestError) :
    MadeFrom m c (.error e) := by
  rintro g ⟨⟩

theorem MadeFrom.ok {g : Guest} (made : g.image.LinkedFrom m c) : MadeFrom (some m) c (.ok g) := by
  intro g' same
  cases same
  exact ⟨m, rfl, made⟩

theorem always_runSetup_madeFrom {g : Guest} (made : g.image.LinkedFrom m c) :
    g.runSetup.Always (MadeFrom (some m) c) := by
  rw [runSetup_eq]
  split
  · intro _
    refine (Action.always_bind (g.call setupExport []) _ _).mpr
      ((g.always_call_image setupExport []).mono ?_)
    rintro ⟨err | words, g'⟩ same
    · exact .error _ c _
    · exact .ok (same ▸ made)
  · exact .ok made

theorem always_bringUp_madeFrom {image : Image} (made : image.LinkedFrom m c) :
    (bringUp m image c).Always (MadeFrom (some m) c) := by
  intro origin
  refine (Action.always_bind ((startUp m image).startAt (freshStore m c origin)) _ _).mpr
    (Action.always_of_forall _ ?_)
  rintro ⟨stop | _, s⟩
  · exact .error _ c _
  · exact fun _ => always_runSetup_madeFrom made

theorem always_load_madeFrom (m : Option Module) (c : Config) :
    (load m c).Always (MadeFrom m c) := by
  cases m with
  | none => exact .error _ c _
  | some m =>
    rw [load_some, instantiate_eq]
    split
    · exact .error _ c _
    · rename_i valid
      rw [registrar_ok]
      intro _
      cases (registrar c).1.checkImports m.imports with
      | error e => exact .error _ c _
      | ok =>
        cases linked : Image.link m (registrar c).1.linker with
        | error f => exact .error _ c _
        | ok image => exact always_bringUp_madeFrom ⟨by simpa using valid, linked⟩

end Guest

namespace Session

def Linked (s : Session) : Prop :=
  ∀ i g, s.guest? i = some g → ∃ m c, g.image.LinkedFrom m c

variable {s s' : Session}

theorem Linked.append (linked : s.Linked) {g : Option Guest}
    (made : ∀ g', g = some g' → ∃ m c, g'.image.LinkedFrom m c) : Linked (s ++ [g]) := by
  intro i g' at_i
  rw [guest?_append] at at_i
  split at at_i
  · exact made g' at_i
  · exact linked i g' at_i

theorem Linked.append_none (linked : s.Linked) : Linked (s ++ [none]) := by
  apply linked.append
  rintro g ⟨⟩

theorem Linked.set (linked : s.Linked) {i : Nat} {g g' : Guest} (found : s.guest? i = some g)
    (same : g'.image = g.image) : Linked (s.set i (some g')) := by
  intro j h at_j
  rw [guest?_set found] at at_j
  split at at_j
  · cases at_j
    exact same ▸ linked i g found
  · exact linked j h at_j

theorem always_onGuest_linked (linked : s.Linked) (i : Nat)
    {f : Guest → Action (Reply × Guest)}
    (kept : ∀ g, (f g).Always fun x => x.2.image = g.image) :
    (s.onGuest i f).Always fun x => x.2.Linked := by
  unfold onGuest
  cases found : s.guest? i with
  | none => exact linked
  | some g => exact (Action.always_bind _ _ _).mpr ((kept g).mono fun _ same => linked.set found same)

theorem always_onMemory_linked (linked : s.Linked) (i : Nat)
    (f : LinearMemory → Reply × LinearMemory) :
    (s.onMemory i f).Always fun x => x.2.Linked := by
  apply always_onGuest_linked linked
  intro g
  cases g.memory? with
  | none => exact rfl
  | some m => exact rfl

theorem always_step_linked (linked : s.Linked) (q : Step) :
    (s.step q).Always fun x => x.2.Linked := by
  cases q with
  | create m text =>
    rw [step, create]
    cases Config.ofText text with
    | error e => exact linked.append_none
    | ok c =>
      refine (Action.always_bind _ _ _).mpr ((Guest.always_load_madeFrom m c).mono ?_)
      rintro (err | g) made
      · exact linked.append_none
      · exact linked.append fun g' same => by
          cases same
          obtain ⟨m', -, image⟩ := made g rfl
          exact ⟨m', c, image⟩
  | call i name args =>
    apply always_onGuest_linked linked
    intro g
    exact (Action.always_bind _ _ _).mpr ((g.always_call_image name args).mono fun _ same => same)
  | hasExport i name => exact always_onGuest_linked linked i fun _ => rfl
  | memory | pages | grow =>
    rw [step]
    exact always_onMemory_linked linked _ _
  | host i q =>
    apply always_onGuest_linked linked
    intro g
    exact (Action.always_bind _ _ _).mpr (Action.always_of_forall _ fun _ => rfl)

end Session

theorem Action.Always.of_follows {α : Type} {P : α → Prop} {x : Action α} (h : x.Always P)
    {u : Trace} {a : α} (follows : x.Follows u a) : P a := by
  induction follows with
  | done a => exact h
  | ask q k answer _ ih => exact ih (h answer)

theorem Session.Runs.linked {s s' : Session} {qs : List Step} {xs : List (Reply × Trace)}
    (runs : Runs s qs xs s') (linked : s.Linked) : s'.Linked := by
  induction runs with
  | nil s => exact linked
  | cons first _ ih => exact ih ((always_step_linked linked _).of_follows first)

/-- An embedder that began with nothing has come to hold the guest, whatever it did and whatever it
was answered. -/
def Guest.Reachable (g : Guest) : Prop :=
  ∃ (qs : List Step) (xs : List (Reply × Trace)) (s : Session) (i : Nat),
    Session.Runs [] qs xs s ∧ s.guest? i = some g

theorem Guest.Reachable.linkedFrom {g : Guest} (reachable : g.Reachable) :
    ∃ m c, g.image.LinkedFrom m c := by
  obtain ⟨qs, xs, s, i, runs, found⟩ := reachable
  exact runs.linked nofun i g found

theorem Guest.Reachable.wellFormed {g : Guest} (reachable : g.Reachable) :
    g.image.WellFormed := by
  obtain ⟨m, c, made⟩ := reachable.linkedFrom
  exact made.wellFormed

theorem Guest.reachable_of_run_load {g : Guest} {m : Option Module} {text : String} {c : Config}
    {w : World} {t t' : Trace} (read : Config.ofText text = .ok c)
    (loaded : (load m c).run w t = (.value (.ok g), t')) : g.Reachable := by
  have made : (Session.step [] (.create m text)).run w t = (.value (.nothing, [some g]), t') := by
    rw [Session.step, Session.create, read]
    simp only [Action.bind_eq_bind, Action.run_bind, loaded]
    rfl
  obtain ⟨u, -, follows, -⟩ := Action.follows_of_run made
  exact ⟨[.create m text], _, _, 0, .cons follows (.nil _), rfl⟩

theorem Guest.reachable_of_link {m : Module} {image : Image} (valid : m.isValid = true)
    (linked : Image.link m (registrar .default).1.linker = .ok image)
    (idle : m.elems = [] ∧ m.data = [] ∧ m.start = none)
    (noSetup : image.exports? setupExport .func = none) :
    Reachable ⟨image, freshStore m .default 0⟩ := by
  have read : Config.ofText "\x7b\x7d" = .ok .default := by decide
  have ready : Linked m .default image :=
    ⟨valid, by rw [registrar_ok], checkImports_of_link linked, linked⟩
  have started : (startUp m image).startAt (freshStore m .default 0) =
      .done (.ok (), freshStore m .default 0) := by
    rw [startUp, startUpIn, Module.opening, idle.1, idle.2.1, idle.2.2]
    rfl
  obtain ⟨t', run_eq⟩ := exists_run_opening Surroundings.still.world [] m .default image
  have ran := run_eq.trans (congrArg (Action.run Surroundings.still.world · _) started)
  have unset : (Guest.mk image (freshStore m .default 0)).hasExport setupExport = false := by
    rw [hasExport, noSetup]
    rfl
  have loaded : ∃ t, (load (some m) .default).run Surroundings.still.world [] =
      (.value (.ok ⟨image, freshStore m .default 0⟩), t) := by
    rw [load_of_linked ready, Action.run_bind, ran]
    dsimp only [Action.run, opened]
    rw [runSetup_eq, unset]
    exact ⟨_, rfl⟩
  obtain ⟨t, loaded⟩ := loaded
  exact reachable_of_run_load read loaded

end GuestHost
