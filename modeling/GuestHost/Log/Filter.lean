import GuestHost.Log.Record
import GuestHost.Text.Trim

/-!
Which log records are shown. A filter is a list of directives, each a target and the most talkative
level to show for targets that begin with it; of the directives that apply the longest one decides.
-/

namespace GuestHost.Log

/-- `most` is the rank of the most talkative level shown; zero shows nothing. -/
structure Directive where
  target : Option String
  most : Nat
  deriving DecidableEq, Repr

abbrev Filter := List Directive

def rank? (name : String) : Option Nat :=
  match name.toLower with
  | "off" => some 0
  | "error" => some Level.error.rank
  | "warn" => some Level.warn.rank
  | "info" => some Level.info.rank
  | "debug" => some Level.debug.rank
  | "trace" => some Level.trace.rank
  | _ => none

namespace Directive

/-- A level, a target, or both with a mark of equality between. The error names the part that is
not understood. -/
def parse (text : String) : Except String Directive :=
  match text.splitOn "=" with
  | [name] =>
    match rank? name with
    | some rank => .ok ⟨none, rank⟩
    | none => .ok ⟨some name, Level.trace.rank⟩
  | [target, level] =>
    let level := Text.trim level
    if level = "" then .ok ⟨some target, Level.trace.rank⟩
    else match rank? level with
      | some rank => .ok ⟨some target, rank⟩
      | none => .error level
  | _ => .error text

def applies (d : Directive) (target : String) : Bool :=
  match d.target with
  | none => true
  | some t => t.isPrefixOf target

def weight (d : Directive) : Nat := (d.target.map String.utf8ByteSize).getD 0

end Directive

namespace Filter

def off : Filter := [⟨none, 0⟩]

def standard : Filter := [⟨none, Level.warn.rank⟩]

def insert (filter : Filter) (d : Directive) : Filter :=
  if filter.any (·.target == d.target) then
    filter.map fun e => if e.target == d.target then d else e
  else filter ++ [d]

def warning (part : String) : String :=
  s!"warning: invalid logging spec '{part}', ignoring it\n"

/-- Directives between commas, and a warning for each that is not understood. With none at all,
only errors are shown. -/
def parse (text : String) : Filter × List String :=
  let parts := ((text.splitOn ",").map Text.trim).filter (· ≠ "")
  let parsed := parts.map Directive.parse
  let filter := parsed.foldl (fun f d => match d with
    | .ok d => insert f d
    | .error _ => f) []
  let warnings := parsed.filterMap fun d => match d with
    | .ok _ => none
    | .error part => some (warning part)
  (if filter.isEmpty then [⟨none, Level.error.rank⟩] else filter, warnings)

def ofSetting : Option String → Filter × List String
  | none => (standard, [])
  | some text => parse text

/-- Of equally long directives the one given last decides. -/
def shows (filter : Filter) (r : Record) : Bool :=
  let sorted := filter.mergeSort fun a b => a.weight ≤ b.weight
  match sorted.reverse.find? (·.applies r.target) with
  | some d => r.level.rank ≤ d.most
  | none => false

end Filter

end GuestHost.Log
