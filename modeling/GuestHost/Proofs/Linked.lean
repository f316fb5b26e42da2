import GuestHost.Proofs.Installed
import Mathlib.Data.List.Forall2

/-!
What a module is linked with. It takes a definition for each of its imports from the linker, or it is
not linked.
-/

namespace GuestHost

section

variable {ε α β : Type}

theorem mapM_eq_ok_iff {f : α → Except ε β} {as : List α} {bs : List β} :
    as.mapM f = .ok bs ↔ List.Forall₂ (fun a b => f a = .ok b) as bs := by
  induction as generalizing bs with
  | nil =>
    rw [List.mapM_nil, List.forall₂_nil_left_iff]
    exact ⟨fun ok => (Except.ok.inj ok).symm, fun none => none ▸ rfl⟩
  | cons a as ih =>
    rw [List.mapM_cons, List.forall₂_cons_left_iff]
    cases first : f a with
    | error e => exact iff_of_false nofun fun ⟨_, _, impossible, _⟩ => nomatch impossible
    | ok b =>
      cases rest : as.mapM f with
      | error e =>
        refine iff_of_false nofun fun ⟨_, bs, _, all, _⟩ => ?_
        cases rest.symm.trans (ih.mpr all)
      | ok bs' =>
        constructor
        · intro ok
          cases ok
          exact ⟨b, bs', rfl, ih.mp rest, rfl⟩
        · rintro ⟨b', bs'', same, all, rfl⟩
          cases same
          cases rest.symm.trans (ih.mpr all)
          rfl

theorem exists_of_mapM_error {f : α → Except ε β} {as : List α} {e : ε}
    (failed : as.mapM f = .error e) : ∃ a ∈ as, f a = .error e := by
  induction as with
  | nil => cases failed
  | cons a as ih =>
    rw [List.mapM_cons] at failed
    cases first : f a with
    | error e' =>
      rw [first] at failed
      cases failed
      exact ⟨a, List.mem_cons_self, first⟩
    | ok b =>
      cases rest : as.mapM f with
      | error e' =>
        rw [first, rest] at failed
        cases failed
        obtain ⟨x, member, same⟩ := ih rest
        exact ⟨x, List.mem_cons_of_mem a member, same⟩
      | ok bs =>
        rw [first, rest] at failed
        cases failed

end

namespace Image

open Wasm (Module Import Fault)

def lookup (l : Linker HostFunction) (i : Import) :
    Except Fault (Import × Definition HostFunction) :=
  match l.find? ⟨i.ns, i.name⟩ with
  | some d => .ok (i, d)
  | none => .error .unknownImport

def typed (x : Import × Definition HostFunction) : Except Fault Code :=
  if x.1.desc = .func x.2.type then .ok (.host x.2.type x.2.func) else .error .incompatibleImport

theorem link_eq_bind (m : Module) (l : Linker HostFunction) :
    link m l = m.imports.mapM (lookup l) >>= fun found => found.mapM typed >>= fun code =>
      pure ⟨code ++ m.funcs.map .guest, m.exports, m.maxDepth⟩ := rfl

/-- The definition is what the import asks for. -/
def Imports (l : Linker HostFunction) (i : Import) (d : Definition HostFunction) : Prop :=
  l.find? ⟨i.ns, i.name⟩ = some d ∧ i.desc = .func d.type

def Code.ofDefinition (d : Definition HostFunction) : Code := .host d.type d.func

variable {l : Linker HostFunction} {imports : List Import}

theorem lookup_eq_ok_iff {i : Import} {x : Import × Definition HostFunction} :
    lookup l i = .ok x ↔ i = x.1 ∧ l.find? ⟨i.ns, i.name⟩ = some x.2 := by
  rcases x with ⟨j, d⟩
  unfold lookup
  cases l.find? ⟨i.ns, i.name⟩ <;> simp

theorem lookup_eq_error {i : Import} {f : Fault} (failed : lookup l i = .error f) :
    l.defines ⟨i.ns, i.name⟩ = false ∧ f = .unknownImport := by
  unfold lookup at failed
  rw [Linker.defines]
  cases found : l.find? ⟨i.ns, i.name⟩ with
  | some d => simp [found] at failed
  | none =>
    rw [found] at failed
    cases failed
    exact ⟨rfl, rfl⟩

theorem typed_eq_ok_iff {x : Import × Definition HostFunction} {c : Code} :
    typed x = .ok c ↔ x.1.desc = .func x.2.type ∧ Code.ofDefinition x.2 = c := by
  unfold typed
  split <;> simp_all [Code.ofDefinition]

theorem typed_eq_error {x : Import × Definition HostFunction} {f : Fault}
    (failed : typed x = .error f) : f = .incompatibleImport := by
  unfold typed at failed
  split at failed
  · cases failed
  · cases failed
    rfl

theorem imports_of_passes {found : List (Import × Definition HostFunction)} {code : List Code}
    (looked : List.Forall₂ (fun i x => lookup l i = .ok x) imports found)
    (agreed : List.Forall₂ (fun x c => typed x = .ok c) found code) :
    ∃ ds, List.Forall₂ (Imports l) imports ds ∧ code = ds.map Code.ofDefinition := by
  induction looked generalizing code with
  | nil =>
    cases agreed
    exact ⟨[], .nil, rfl⟩
  | cons here _ ih =>
    cases agreed with
    | cons same agreed =>
      obtain ⟨rfl, found⟩ := lookup_eq_ok_iff.mp here
      obtain ⟨type, rfl⟩ := typed_eq_ok_iff.mp same
      obtain ⟨ds, all, rfl⟩ := ih agreed
      exact ⟨_ :: ds, .cons ⟨found, type⟩ all, rfl⟩

theorem passes_of_imports {ds : List (Definition HostFunction)}
    (all : List.Forall₂ (Imports l) imports ds) :
    List.Forall₂ (fun i x => lookup l i = .ok x) imports (imports.zip ds) ∧
      List.Forall₂ (fun x c => typed x = .ok c) (imports.zip ds) (ds.map Code.ofDefinition) := by
  induction all with
  | nil => exact ⟨.nil, .nil⟩
  | cons here _ ih =>
    exact ⟨.cons (lookup_eq_ok_iff.mpr ⟨rfl, here.1⟩) ih.1,
      .cons (typed_eq_ok_iff.mpr ⟨here.2, rfl⟩) ih.2⟩

theorem link_eq_ok_iff {m : Module} {image : Image} :
    link m l = .ok image ↔ ∃ ds, List.Forall₂ (Imports l) m.imports ds ∧
      image = ⟨ds.map Code.ofDefinition ++ m.funcs.map .guest, m.exports, m.maxDepth⟩ := by
  rw [link_eq_bind]
  constructor
  · intro ok
    cases looked : m.imports.mapM (lookup l) with
    | error f =>
      rw [looked] at ok
      cases ok
    | ok found =>
      cases agreed : found.mapM typed with
      | error f =>
        rw [looked] at ok
        simp [agreed, bind, Except.bind] at ok
      | ok code =>
        rw [looked] at ok
        simp only [agreed, bind, Except.bind, pure, Except.pure, Except.ok.injEq] at ok
        obtain ⟨ds, all, rfl⟩ := imports_of_passes (mapM_eq_ok_iff.mp looked)
          (mapM_eq_ok_iff.mp agreed)
        exact ⟨ds, all, ok.symm⟩
  · rintro ⟨ds, all, rfl⟩
    obtain ⟨looked, agreed⟩ := passes_of_imports all
    rw [mapM_eq_ok_iff.mpr looked]
    simp only [bind, Except.bind, mapM_eq_ok_iff.mpr agreed]
    rfl

theorem defines_of_imports {ds : List (Definition HostFunction)}
    (all : List.Forall₂ (Imports l) imports ds) {i : Import} (member : i ∈ imports) :
    l.defines ⟨i.ns, i.name⟩ = true := by
  induction all with
  | nil => cases member
  | cons here _ ih =>
    rcases List.mem_cons.mp member with rfl | later
    · rw [Linker.defines, here.1]
      rfl
    · exact ih later

theorem found_of_imports {ds : List (Definition HostFunction)}
    (all : List.Forall₂ (Imports l) imports ds) {d : Definition HostFunction} (member : d ∈ ds) :
    ∃ i ∈ imports, l.find? ⟨i.ns, i.name⟩ = some d := by
  induction all with
  | nil => cases member
  | cons here _ ih =>
    rcases List.mem_cons.mp member with rfl | later
    · exact ⟨_, List.mem_cons_self, here.1⟩
    · obtain ⟨i, imported, found⟩ := ih later
      exact ⟨i, List.mem_cons_of_mem _ imported, found⟩

theorem exists_import_of_unknown {m : Module} (failed : link m l = .error .unknownImport) :
    ∃ i ∈ m.imports, l.defines ⟨i.ns, i.name⟩ = false := by
  rw [link_eq_bind] at failed
  cases looked : m.imports.mapM (lookup l) with
  | error f =>
    obtain ⟨i, member, missing⟩ := exists_of_mapM_error looked
    exact ⟨i, member, (lookup_eq_error missing).1⟩
  | ok found =>
    rw [looked] at failed
    cases agreed : found.mapM typed with
    | error f =>
      obtain ⟨x, _, wrong⟩ := exists_of_mapM_error agreed
      simp [agreed, bind, Except.bind, typed_eq_error wrong] at failed
    | ok code => simp [agreed, bind, Except.bind, pure, Except.pure] at failed

/-- Import `j` of a module that was linked under some configuration stands under the key. -/
def HasImport (image : Image) (j : Nat) (key : Key) : Prop :=
  ∃ (m : Module) (c : Config) (desc : Wasm.ImportDesc),
    link m (Guest.registrar c).1.linker = .ok image ∧ m.imports[j]? = some ⟨key.ns, key.name, desc⟩

end Image

theorem Primitive.mem_all (p : Primitive) : p ∈ all := by
  cases p <;> decide

theorem WasiCall.mem_all (c : WasiCall) : c ∈ all := by
  cases c <;> decide

namespace HostFunction

theorem primitive_mem_set (p : Primitive) (wasi : Bool) : primitive p ∈ set wasi := by
  simp [set, p.mem_all]

theorem wasi_mem_set (c : WasiCall) : wasi c ∈ set true := by
  simp [set, c.mem_all]

end HostFunction

theorem Guest.find?_of_served {c : Config} {f : HostFunction} (served : f ∈ HostFunction.set c.wasi)
    {name : String} (named : name ∈ f.names) :
    (registrar c).1.linker.find? ⟨f.ns, name⟩ = some ⟨⟨f.ns, name⟩, f.type, f⟩ := by
  have installed : Registrar.bindEach (HostFunction.registrations c.wasi)
      { wasi := c.wasi, linker := {} } = ((registrar c).1, .ok ()) := by
    rw [← registrar_ok, registrar, Registrar.install, Registrar.registerAll_eq_bindEach]
    rfl
  have member : (⟨⟨⟨f.ns, name⟩, f.name⟩, f.type, f⟩ : Registration HostFunction) ∈
      HostFunction.registrations c.wasi :=
    List.mem_flatMap.mpr ⟨f, served, List.mem_map.mpr ⟨name, named, rfl⟩⟩
  exact (Registrar.find?_of_bindEach installed member).1

/-- An import under a name of a function that is served always is linked with that function. -/
theorem Image.HasImport.code {image : Image} {j : Nat} {f : HostFunction} {name : String}
    (imported : image.HasImport j ⟨f.ns, name⟩) (named : name ∈ f.names)
    (served : ∀ wasi, f ∈ HostFunction.set wasi) :
    image.code[j]? = some (.host f.type f) := by
  obtain ⟨m, c, desc, linked, at_j⟩ := imported
  obtain ⟨ds, all, rfl⟩ := link_eq_ok_iff.mp linked
  obtain ⟨below, here⟩ := List.getElem?_eq_some_iff.mp at_j
  have defined : j < ds.length := all.length_eq ▸ below
  have found := (List.forall₂_iff_get.mp all).2 j below defined
  have same := found.1
  simp only [List.get_eq_getElem, here, Guest.find?_of_served (served c.wasi) named,
    Option.some.injEq] at same
  rw [List.getElem?_append_left (by simpa using defined), List.getElem?_map,
    List.getElem?_eq_getElem defined, ← same]
  rfl

theorem Image.link_only {m : Wasm.Module} {c : Config} {f : HostFunction} {name : String}
    (only : m.imports = [⟨f.ns, name, .func f.type⟩]) (named : name ∈ f.names)
    (served : f ∈ HostFunction.set c.wasi) :
    link m (Guest.registrar c).1.linker =
      .ok ⟨.host f.type f :: m.funcs.map .guest, m.exports, m.maxDepth⟩ := by
  refine link_eq_ok_iff.mpr ⟨[⟨⟨f.ns, name⟩, f.type, f⟩], ?_, rfl⟩
  rw [only]
  exact .cons ⟨Guest.find?_of_served served named, rfl⟩ .nil

theorem Image.hasImport_only {m : Wasm.Module} {f : HostFunction} {name : String}
    (only : m.imports = [⟨f.ns, name, .func f.type⟩]) (named : name ∈ f.names)
    (served : f ∈ HostFunction.set Config.default.wasi) :
    HasImport ⟨.host f.type f :: m.funcs.map .guest, m.exports, m.maxDepth⟩ 0 ⟨f.ns, name⟩ := by
  refine ⟨m, .default, .func f.type, link_only only named served, ?_⟩
  rw [only]
  rfl

theorem Guest.checkImports_of_link {m : Wasm.Module} {c : Config} {image : Image}
    (linked : Image.link m (registrar c).1.linker = .ok image) :
    (registrar c).1.checkImports m.imports = .ok () := by
  obtain ⟨ds, all, -⟩ := Image.link_eq_ok_iff.mp linked
  rw [Registrar.checkImports_eq_ok_iff]
  intro i member _
  rw [registrar_claims, ← registrar_defines]
  exact Image.defines_of_imports all member

end GuestHost
