import GuestHost.Proofs.HostHistory
import GuestHost.Proofs.ReachableGuests

/-!
64-bit values on their way across 32-bit calls. Main statement: splitting and combining undo each
other, and a value that the host has split is whole again after any calls of a guest that keep no
word but one that was fetched on the way.
-/

namespace GuestHost

open Wasm (Val Module)

def Event.fetched? : Event → Option (BitVec 32)
  | served (.primitive .getTempRet0) _ _ (.ok [.i32 w]) => some w
  | _ => none

namespace History

/-- Every word that is given to be kept was fetched before. -/
def Relays (h : History) : Prop :=
  ∀ past e later w, h = past ++ e :: later → e.staged? = some w →
    ∃ e' ∈ past, e'.fetched? = some w

theorem Relays.before {h : History} {e : Event} (relays : Relays (h ++ [e])) : h.Relays := by
  rintro past e' later w rfl given
  exact relays past e' (later ++ [e]) w (by simp) given

/-- Calls that came upon one kept word and left another. Each tells the word that it came upon, if
any, and leaves the one that it gives, if any. -/
inductive Carries (r : BitVec 32) : History → BitVec 32 → Prop
  | nil : Carries r [] r
  | snoc {h : History} {w : BitVec 32} {e : Event} (before : Carries r h w)
      (told : ∀ x, e.fetched? = some x → x = w) : Carries r (h ++ [e]) (e.staged?.getD w)

/-- Where every word that is kept was fetched, it is the first one all the time. -/
theorem Carries.eq_of_relays {r w : BitVec 32} {h : History} (carries : Carries r h w)
    (relays : h.Relays) : w = r ∧ ∀ e ∈ h, ∀ x, e.fetched? = some x → x = r := by
  induction carries with
  | nil => exact ⟨rfl, by simp⟩
  | @snoc h w e before told ih =>
    obtain ⟨rfl, all⟩ := ih relays.before
    constructor
    · cases given : e.staged? with
      | none => rfl
      | some x =>
        obtain ⟨e', member, fetched⟩ := relays h e [] x rfl given
        exact all e' member x fetched
    · intro e' member
      rcases List.mem_append.mp member with earlier | last
      · exact all e' earlier
      · rw [List.mem_singleton.mp last]
        exact told

theorem fetched_of_run (caller : Context) (f : HostFunction) {args : List Val}
    (other : ∀ t, f ≠ .trampoline t) (count : args.length ≤ f.type.params.length) (s : Store) :
    ((f.run caller args).startAt s).Always fun p =>
      ∀ x, (Event.served f args s p.1).fetched? = some x → x = s.host.staging.value := by
  by_cases fetches : f = .primitive .getTempRet0
  · subst fetches
    apply (answer_of_getTempRet0 caller count s).mono
    intro p answer x told
    rw [answer] at told
    exact (Option.some.inj told).symm
  · have none (r : Except Stop (List Val)) : (Event.served f args s r).fetched? = none := by
      unfold Event.fetched?
      split
      · rename_i same
        injection same with same
        exact absurd same fetches
      · rfl
    apply (f.run_follows caller args s other).mono
    intro p _ x told
    rw [none] at told
    cases told

def CarriesFrom (r : BitVec 32) (s : Store) (h : History) : Prop :=
  Carries r h s.host.staging.value

theorem carriesFrom_invariant (r : BitVec 32) : EventInvariant (CarriesFrom r) where
  host carries same := by
    rw [CarriesFrom, same]
    exact carries
  entered fn args carries := carries.snoc (by simp [Event.fetched?])
  dispatched t args carries := carries.snoc (by simp [Event.fetched?])
  served := by
    intro s h caller f args other count carries
    have told := fetched_of_run caller f other count s
    apply ((f.run_follows caller args s other).and told).mono
    rintro p ⟨follows, told⟩
    rw [CarriesFrom, follows.staging]
    exact carries.snoc told

end History

namespace StagingRegister

theorem serve_split (r : StagingRegister) (v : BitVec 64) :
    StagingRequest.serve r (.split v) = (.signed (split v).1, (split v).2) := rfl

theorem serve_combine (r : StagingRegister) (low : BitVec 32) :
    StagingRequest.serve r (.combine low) = (.signedLong (r.combine low), r) := rfl

/-- Splitting and combining, as an embedder asks for them: each undoes the other, so they lose
nothing. -/
structure Lossless : Prop where
  split_first (r : StagingRegister) (v : BitVec 64) : ∃ low r',
    StagingRequest.serve r (.split v) = (.signed low, r') ∧
      StagingRequest.serve r' (.combine low) = (.signedLong v, r')
  combine_first (r : StagingRegister) (low : BitVec 32) : ∃ v,
    StagingRequest.serve r (.combine low) = (.signedLong v, r) ∧
      ∀ r', StagingRequest.serve r' (.split v) = (.signed low, r)
  injective (r r' : StagingRegister) (low low' : BitVec 32) :
    (StagingRequest.serve r (.combine low)).1 = (StagingRequest.serve r' (.combine low')).1 →
      r = r' ∧ low = low'

theorem lossless : Lossless where
  split_first r v := by
    refine ⟨_, _, serve_split r v, ?_⟩
    rw [serve_combine, combine_split]
  combine_first r low := by
    refine ⟨_, serve_combine r low, fun r' => ?_⟩
    rw [serve_split, split_combine]
  injective r r' low low' same := by
    have combined : r.combine low = r'.combine low' := Reply.signedLong.inj same
    have split := congrArg StagingRegister.split combined
    rw [split_combine, split_combine] at split
    exact ⟨(Prod.mk.inj split).2, (Prod.mk.inj split).1⟩

end StagingRegister

namespace Guest

def stage (g : Guest) (q : StagingRequest) : Reply × Guest :=
  ((q.serve g.store.host.staging).1, { g with store := { g.store with
    host := { g.store.host with staging := (q.serve g.store.host.staging).2 } } })

theorem stage_combine (g : Guest) (low : BitVec 32) :
    (g.stage (.combine low)).1 = .signedLong (g.store.host.staging.combine low) := rfl

theorem step_staging {s : Session} {i : Nat} {g : Guest} (found : s.guest? i = some g)
    (q : StagingRequest) :
    s.step (.host i (.staging q)) = .done ((g.stage q).1, s.set i (some (g.stage q).2)) := by
  rw [Session.step, Session.onGuest, found]
  rfl

/-- The two functions that splitting and combining need undo each other, for every value and
whatever the register held. Let the host split a value into the register of any guest that it can
come to hold, call any exports of the guest one after the other, and combine after any of them. If
on the way the guest gave no word to be kept but one that it had fetched, whatever else it called,
the value comes out, and whoever fetched was told its high word. -/
theorem staging_lossless : StagingRegister.Lossless ∧
    ∀ g : Guest, g.Reachable → ∀ (v : BitVec 64) (calls : List ExportCall), ∃ low g',
      g.stage (.split v) = (.signed low, g') ∧
      (·.map (·.1)) <$> g'.recordedCalls [] calls = g'.callAll calls ∧
      (g'.recordedCalls [] calls).Always fun xs => ∀ x ∈ xs, x.2.Relays →
        (x.1.2.stage (.combine low)).1 = .signedLong v ∧
          ∀ e ∈ x.2, ∀ w, e.fetched? = some w → w = (v >>> 32).setWidth 32 := by
  refine ⟨StagingRegister.lossless, fun g reachable v calls => ?_⟩
  have honest : g.image.Honest := reachable.wellFormed.honest
  -- Records begin after the split, with its high word in the register.
  have along := along_calls (History.carriesFrom_invariant (StagingRegister.split v).2.value)
    (g := (g.stage (.split v)).2) (h := []) ⟨honest, .nil⟩ calls
  refine ⟨(StagingRegister.split v).1, (g.stage (.split v)).2, rfl,
    along.erase _ fun _ _ ended => ended.1, along.always ?_⟩
  rintro xs _ ⟨-, grown⟩ x member relays
  obtain ⟨kept, told⟩ := (grown.recounted x member).good.eq_of_relays relays
  refine ⟨?_, told⟩
  have register : x.1.2.store.host.staging = (StagingRegister.split v).2 :=
    congrArg StagingRegister.mk kept
  rw [stage_combine, register, StagingRegister.combine_split]

def relayingFunc : Wasm.Func where
  type := ⟨[], []⟩
  body := fun _ => do
    let words ← Wasm.Body.callFunc 0 []
    Wasm.Body.callFunc 1 words

def relayingModule : Module where
  imports := [⟨"env", "getTempRet0", .func ⟨[], [.i32]⟩⟩,
    ⟨"env", "setTempRet0", .func ⟨[.i32], []⟩⟩]
  funcs := [relayingFunc]
  exports := [⟨"relay", .func, 2⟩]
  maxDepth := 10

def relayingImage : Image where
  code := [.host ⟨[], [.i32]⟩ (.primitive .getTempRet0),
    .host ⟨[.i32], []⟩ (.primitive .setTempRet0),
    .guest relayingFunc]
  exports := [⟨"relay", .func, 2⟩]
  maxDepth := 10

def relayingGuest : Guest := ⟨relayingImage, freshStore relayingModule .default 0⟩

theorem relayingGuest_reachable : relayingGuest.Reachable := by
  have served (p : Primitive) := HostFunction.primitive_mem_set p Config.default.wasi
  have linked : Image.link relayingModule (registrar .default).1.linker = .ok relayingImage :=
    Image.link_eq_ok_iff.mpr ⟨[⟨⟨"env", "getTempRet0"⟩, ⟨[], [.i32]⟩, .primitive .getTempRet0⟩,
      ⟨⟨"env", "setTempRet0"⟩, ⟨[.i32], []⟩, .primitive .setTempRet0⟩],
      .cons ⟨find?_of_served (served .getTempRet0) (by decide), rfl⟩
        (.cons ⟨find?_of_served (served .setTempRet0) (by decide), rfl⟩ .nil), rfl⟩
  exact reachable_of_link (by decide) linked (by decide) (by decide)

theorem staging_lossless_relaying : relayingGuest.Reachable ∧ ∃ low g',
    relayingGuest.stage (.split 0x8000000090000001) = (.signed low, g') ∧
    (·.map (·.1)) <$> g'.recordedCalls [] [⟨"relay", []⟩] = g'.callAll [⟨"relay", []⟩] ∧
    (g'.recordedCalls [] [⟨"relay", []⟩]).Always fun xs => ∀ x ∈ xs, x.2.Relays →
      (x.1.2.stage (.combine low)).1 = .signedLong 0x8000000090000001 ∧
        ∀ e ∈ x.2, ∀ w, e.fetched? = some w →
          w = (0x8000000090000001 >>> 32 : BitVec 64).setWidth 32 :=
  ⟨relayingGuest_reachable, staging_lossless.2 relayingGuest relayingGuest_reachable _ _⟩

/-- The guest finds the word and leaves it, and both calls are in the record. -/
example (s : Store) : recordedCall ⟨relayingImage, s⟩ [] "relay" [] =
    .done ((.ok [], ⟨relayingImage, s⟩), [.entered relayingFunc [],
      .served (.primitive .getTempRet0) [] s (.ok [.i32 s.host.staging.value]),
      .served (.primitive .setTempRet0) [.i32 s.host.staging.value] s (.ok [])]) :=
  rfl

end Guest

end GuestHost
