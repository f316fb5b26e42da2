import GuestHost.Proofs.Reporting

/-!
What the log is told of fatal errors. Main statement: in any session an answered step tells the log
of an error exactly if it fails with a fatal one. The report is the last thing that the log is told,
and it has the canonical name of a function that the guest's module imports under any of its names.
-/

namespace GuestHost

open Wasm (Module)

/-! Sessions -/

/-- What a guest is asked to be made of: a module file's contents, and the text of its
configuration. -/
structure Asked where
  module : Option Module
  config : String

namespace Asked

def Makes (a : Asked) (g : Guest) : Prop :=
  ∃ c, Config.ofText a.config = .ok c ∧ g.MadeOf a.module c

def Exits (a : Asked) : Prop := ∃ c, Config.ofText a.config = .ok c ∧ c.fatal = .exit

end Asked

namespace Step

def asked? : Step → Option Asked
  | create m text => some ⟨m, text⟩
  | _ => none

def guest (made : Nat) : Step → Nat
  | create .. => made
  | call i .. | hasExport i _ | memory i _ | pages i | grow i _ | host i _ => i

end Step

def Reply.fatal? : Reply → Option HostError
  | guestError err => err.fatal?
  | _ => none

theorem MemoryRequest.fatal?_serve (m : Memory) (q : MemoryRequest) :
    (q.serve m).1.fatal? = none := by
  have answer {α : Type} {f : α → Reply} (calm : ∀ a, (f a).fatal? = none)
      (x : Except HostError α) : (MemoryRequest.answer f x).fatal? = none := by
    cases x with
    | error e => rfl
    | ok a => exact calm a
  have change (x : Except HostError Memory) : (MemoryRequest.change m x).1.fatal? = none := by
    cases x <;> rfl
  cases q with
  | size => rfl
  | read | any | readU32 => exact answer (fun _ => rfl) _
  | write | fill | writeU32 | writeU64 | copy => exact change _

namespace Session

def asked (qs : List Step) : List Asked := qs.filterMap (·.asked?)

structure MadeOf (as : List Asked) (s : Session) : Prop where
  count : s.length = as.length
  guests (i : Nat) (g : Guest) : s.guest? i = some g → ∃ a ∈ as[i]?, a.Makes g

/-- The end of a step that is about guest `i`, after a fatal error or without one. -/
structure AnsweredBy (as : List Asked) (i : Nat) (o : Option HostError) (x : Reply × Session) :
    Prop where
  fatal : x.1.fatal? = o
  raised : ∀ e ∈ o, ∃ a ∈ as[i]?, Escalates a.module e
  made : x.2.MadeOf as

/-- A step that is about guest `i` reports its fatal error, and ends the process over it only if
that guest was asked for so. -/
def Reporting (as : List Asked) (i : Nat) (x : Action (Reply × Session)) : Prop :=
  ∃ p, (p = .exit → ∃ a ∈ as[i]?, a.Exits) ∧ x.Reports p (AnsweredBy as i)

variable {s : Session} {as : List Asked} {i : Nat}

theorem Reporting.done {x : Reply × Session} (calm : x.1.fatal? = none) (made : x.2.MadeOf as) :
    Reporting as i (.done x) :=
  ⟨.trap, nofun, .done x ⟨calm, nofun, made⟩⟩

theorem MadeOf.set {g g' : Guest} {a : Asked} (made : s.MadeOf as) (found : s.guest? i = some g)
    (asked : a ∈ as[i]?) (makes : a.Makes g') : MadeOf as (s.set i (some g')) where
  count := by rw [List.length_set, made.count]
  guests j h at_j := by
    rw [guest?_set found] at at_j
    split at at_j
    · rename_i same
      cases at_j
      exact ⟨a, same ▸ asked, makes⟩
    · exact made.guests j h at_j

theorem guest?_append (s : Session) (g : Option Guest) (i : Nat) :
    guest? (s ++ [g]) i = if i = s.length then g else s.guest? i := by
  unfold guest?
  by_cases last : i = s.length
  · subst last
    simp
  · by_cases below : i < s.length
    · rw [if_neg last, List.getElem?_append_left below]
    · rw [if_neg last, List.getElem?_eq_none (by simp; omega), List.getElem?_eq_none (by omega)]

theorem MadeOf.append {a : Asked} {g : Option Guest} (made : s.MadeOf as)
    (makes : ∀ g' ∈ g, a.Makes g') : MadeOf (as ++ [a]) (s ++ [g]) where
  count := by simp [made.count]
  guests j h at_j := by
    rw [guest?_append] at at_j
    split at at_j
    · rename_i last
      subst last
      exact ⟨a, by simp [made.count], makes h at_j⟩
    · obtain ⟨b, asked, makes⟩ := made.guests j h at_j
      have below : j < as.length := (List.getElem?_eq_some_iff.mp asked).1
      exact ⟨b, (List.getElem?_append_left below).trans asked, makes⟩

theorem MadeOf.appendNone (made : s.MadeOf as) (a : Asked) : MadeOf (as ++ [a]) (s ++ [none]) :=
  made.append fun _ same => by cases same

theorem reporting_onGuest (made : s.MadeOf as) (i : Nat) {f : Guest → Action (Reply × Guest)}
    (reports : ∀ (g : Guest) (m : Option Module) (c : Config), g.MadeOf m c →
      (f g).Reports c.fatal fun o x =>
        x.1.fatal? = o ∧ (∀ e ∈ o, Escalates m e) ∧ x.2.MadeOf m c) :
    Reporting as i (s.onGuest i f) := by
  unfold onGuest
  cases found : s.guest? i with
  | none => exact .done rfl made
  | some g =>
    obtain ⟨a, asked, c, read, of⟩ := made.guests i g found
    refine ⟨c.fatal, fun exits => ⟨a, asked, c, read, exits⟩, ?_⟩
    apply (reports g a.module c of).bind
    · rintro ⟨r, g'⟩ ⟨calm, _, of'⟩
      exact .done _ ⟨calm, nofun, made.set found asked ⟨c, read, of'⟩⟩
    · rintro e ⟨r, g'⟩ ⟨fatal, raised, of'⟩
      refine ⟨_, rfl, fatal, fun e' same => ?_, made.set found asked ⟨c, read, of'⟩⟩
      exact ⟨a, asked, raised e' same⟩

theorem reporting_onMemory (made : s.MadeOf as) (i : Nat) {f : LinearMemory → Reply × LinearMemory}
    (calm : ∀ m, (f m).1.fatal? = none) : Reporting as i (s.onMemory i f) := by
  apply reporting_onGuest made i
  intro g m c of
  split
  · exact .done _ ⟨rfl, nofun, of⟩
  · exact .done _ ⟨calm _, nofun, of.config, of.escalates⟩

theorem reporting_create (made : s.MadeOf as) (m : Option Module) (text : String) :
    Reporting (as ++ [⟨m, text⟩]) as.length (s.create m text) := by
  unfold create
  cases read : Config.ofText text with
  | error e => exact .done rfl (made.appendNone _)
  | ok c =>
    have asked : (⟨m, text⟩ : Asked) ∈ (as ++ [⟨m, text⟩])[as.length]? := by simp
    refine ⟨c.fatal, fun exits => ⟨_, asked, c, read, exits⟩, ?_⟩
    apply (Guest.reports_load m c).bind
    · rintro (err | g) ends
      · exact .done _ ⟨ends.fatal, nofun, made.appendNone _⟩
      · refine .done _ ⟨rfl, nofun, made.append fun g' same => ?_⟩
        cases same
        exact ⟨c, read, ends.guest g rfl⟩
    · rintro e (err | g) ends
      · refine ⟨_, rfl, ends.fatal, fun e' same => ?_, made.appendNone _⟩
        exact ⟨_, asked, ends.raised e' same⟩
      · cases ends.fatal

theorem reports_host (p : FatalPolicy) (h : HostState) (q : HostRequest) :
    (q.serve h).Reports p fun o x => o = none ∧ x.1.fatal? = none ∧ x.2.config = h.config := by
  cases q with
  | staging q => cases q <;> exact .done _ ⟨rfl, rfl, rfl⟩
  | push stream bytes => cases stream <;> exact .done _ ⟨rfl, rfl, rfl⟩
  | monotonic => exact .ask _ rfl fun _ => .ask _ rfl fun _ => .done _ ⟨rfl, rfl, rfl⟩
  | _ => exact .done _ ⟨rfl, rfl, rfl⟩

theorem reporting_call (made : s.MadeOf as) (i : Nat) (name : String) (args : List (BitVec 64)) :
    Reporting as i (s.step (.call i name args)) := by
  apply reporting_onGuest made i
  intro g m c of
  have called := Guest.reports_call g name args
  rw [of.config] at called
  apply called.bind
  · rintro ⟨err | words, g'⟩ ends
    · exact .done _ ⟨ends.fatal, nofun, of.called ends⟩
    · exact .done _ ⟨rfl, nofun, of.called ends⟩
  · rintro e ⟨err | words, g'⟩ ends
    · refine ⟨_, rfl, ends.fatal, fun e raised => ?_, of.called ends⟩
      exact of.escalates e (ends.raised e raised)
    · cases ends.fatal

theorem reporting_request (made : s.MadeOf as) {q : Step} (other : q.asked? = none) :
    Reporting as (q.guest as.length) (s.step q) := by
  unfold step
  cases q with
  | create m text => cases other
  | call i name args => exact reporting_call made i name args
  | hasExport i name => exact reporting_onGuest made i fun g m c of => .done _ ⟨rfl, nofun, of⟩
  | memory i q => exact reporting_onMemory made i fun m => q.fatal?_serve m.toMemory
  | pages i => exact reporting_onMemory made i fun _ => rfl
  | grow i delta =>
    apply reporting_onMemory made i
    intro m
    cases m.grow delta <;> rfl
  | host i q =>
    apply reporting_onGuest made i
    intro g m c of
    apply (reports_host c.fatal g.store.host q).bind
    · rintro ⟨r, h⟩ ⟨_, calm, config⟩
      exact .done _ ⟨calm, nofun, config.trans of.config, of.escalates⟩
    · rintro e x ⟨impossible, _⟩
      cases impossible

/-- What one step does is as what guests were asked for, its own among them. -/
theorem reporting_step (made : s.MadeOf as) (q : Step) :
    Reporting (as ++ q.asked?.toList) (q.guest as.length) (s.step q) := by
  cases asks : q.asked? with
  | none =>
    rw [Option.toList_none, List.append_nil]
    exact reporting_request made asks
  | some a =>
    cases q with
    | create m text =>
      cases asks
      exact reporting_create made m text
    | _ => cases asks

end Session

def Reply.report? : Reply → Option Log.Record
  | guestError err => err.fatal?.map fun _ => err.report
  | _ => none

theorem Reply.map_fatalRecord (r : Reply) : r.fatal?.map fatalRecord = r.report? := by
  cases r with
  | guestError err =>
    cases behind : err.fatal? with
    | none => simp [fatal?, report?, behind]
    | some e => simp [fatal?, report?, behind, (GuestError.fatalRecord_of_fatal? behind).2]
  | _ => rfl

namespace Session

/-- What an answered step told the log, when guests were asked for like that and the step was about
guest `i`. -/
structure Reported (as : List Asked) (i : Nat) (r : Reply) (u : Trace) : Prop where
  errors : u.records.filter (·.level = .error) = r.report?.toList
  last : ∀ record ∈ r.report?, u.records.getLast? = some record
  names : ∀ e ∈ r.fatal?, ∃ a ∈ as[i]?, Escalates a.module e

def subjects : Nat → List Step → List Nat
  | _, [] => []
  | made, q :: qs => q.guest made :: subjects (made + q.asked?.toList.length) qs

theorem AnsweredBy.reported {as : List Asked} {i : Nat} {o : Option HostError} {r : Reply}
    {s : Session} {u : Trace} (answered : AnsweredBy as i o (r, s)) (reports : u.Reports o)
    (later : List Asked) : Reported (as ++ later) i r u := by
  obtain ⟨rfl, raised, _⟩ := answered
  refine ⟨?_, fun record told => ?_, fun e fatal => ?_⟩
  · rw [reports.errors, r.map_fatalRecord]
  · rw [← r.map_fatalRecord] at told
    obtain ⟨e, fatal, rfl⟩ := Option.map_eq_some_iff.mp told
    exact reports.getLast? fatal
  · obtain ⟨a, asked, escalates⟩ := raised e fatal
    have below : i < as.length := (List.getElem?_eq_some_iff.mp asked).1
    exact ⟨a, (List.getElem?_append_left below).trans asked, escalates⟩

/-- Every step up to the end was answered, and told the log what it has to. The process ended only
over a guest that was asked for so. -/
structure Transcript.Reports (as : List Asked) (subjects : List Nat) (T : Transcript) : Prop where
  answered (k i : Nat) (r : Reply) (u : Trace) : subjects[k]? = some i →
    T.replies[k]? = some (r, u) → Reported as i r u
  all (s : Session) : T.ending = .value s → T.replies.length = subjects.length
  quit (status : Nat) : T.ending = .exited status →
    ∃ i ∈ subjects[T.replies.length]?, ∃ a ∈ as[i]?, a.Exits

theorem Transcript.Reports.cons {as : List Asked} {is : List Nat} {T : Transcript} {i : Nat}
    {r : Reply} {u : Trace} (reports : T.Reports as is) (first : Reported as i r u) :
    (T.cons (r, u)).Reports as (i :: is) where
  answered k i' r' u' about told := by
    cases k with
    | zero =>
      cases about
      cases told
      exact first
    | succ k => exact reports.answered k i' r' u' about told
  all s ended := congrArg (· + 1) (reports.all s ended)
  quit status ended := reports.quit status ended

theorem play_reports_from (w : World) {s : Session} {as : List Asked} (made : s.MadeOf as)
    (t : Trace) (qs : List Step) :
    (play w s t qs).Reports (as ++ asked qs) (subjects as.length qs) := by
  induction qs generalizing s as t with
  | nil => exact ⟨fun _ _ _ _ about _ => by simp [subjects] at about, fun _ _ => rfl, nofun⟩
  | cons q qs ih =>
    have asked_cons : as ++ asked (q :: qs) = (as ++ q.asked?.toList) ++ asked qs := by
      cases asks : q.asked? <;> simp [asked, asks]
    rw [asked_cons, subjects, ← List.length_append]
    obtain ⟨p, exits, reports⟩ := reporting_step made q
    rcases reports.run w t with ⟨o, ⟨r, s'⟩, u, ran, ends, told⟩ | ⟨exit, _, _, _, _, _, ran⟩
    · rw [play_answered ran]
      exact (ih ends.made (t ++ u)).cons (ends.reported told _)
    · rw [play_exited ran]
      obtain ⟨a, asked, quit⟩ := exits exit
      have below : q.guest as.length < (as ++ q.asked?.toList).length :=
        (List.getElem?_eq_some_iff.mp asked).1
      refine ⟨fun _ _ _ _ _ told => by simp at told, nofun, fun _ _ => ⟨_, rfl, a, ?_, quit⟩⟩
      exact (List.getElem?_append_left below).trans asked

/-- Guests are made of any modules with any configurations, and any steps are taken. An answered
step tells the log of an error exactly if it fails with a fatal one: once, as the last thing that
the log is told, and with the message that the embedder gets. The error has the canonical name of a
function which that guest's module imports under any of its names; a function that calls no other
has none but its own. A step about a guest that hands fatal errors back is always answered. -/
theorem play_reports (w : World) (t : Trace) (qs : List Step) :
    (play w [] t qs).Reports (asked qs) (subjects 0 qs) ∧
      ∀ f : HostFunction, (∀ t, f ≠ .trampoline t) → ∀ c args,
        Run.Reporting (· = f.escalation) (f.run c args) := by
  constructor
  · have nothing : MadeOf [] [] := ⟨rfl, fun _ _ found => by cases found⟩
    exact play_reports_from w nothing t qs
  · exact fun f plain c args => f.reporting plain c args

example : (play Surroundings.still.world (under .trap [some abortingGuest]) []
    [.call 0 "run" []]).replies.map (·.2.records) =
    [[⟨.error, "embridge::fatal", "fatal: Called into abort: guest aborted"⟩]] := by
  decide

end Session

end GuestHost
