import GuestHost.Decimal.Layout
import GuestHost.Json.Quoted

/-!
Reading a number one character at a time, and its value: an integer when it is written as one and
fits 64 bits, a floating number otherwise.
-/

namespace GuestHost.Json

open Decimal (Binary64 Layout)

inductive NumeralMode
  | sign
  | zero
  | whole
  | point
  | fraction
  | mark
  | markSign
  | power
  deriving DecidableEq, Repr

/-- Digit lists hold the last digit first. `fraction` and `power` are empty where the number has no
such part. -/
structure Numeral where
  negative : Bool := false
  whole : List Nat := []
  fraction : List Nat := []
  powerNegative : Bool := false
  power : List Nat := []
  mode : NumeralMode
  deriving DecidableEq, Repr

def digit? (c : Char) : Option Nat :=
  if c.isDigit then some (c.toNat - '0'.toNat) else none

namespace Numeral

def start? (c : Char) : Option Numeral :=
  if c = '-' then some { negative := true, mode := .sign }
  else (digit? c).map fun d => { whole := [d], mode := if d = 0 then .zero else .whole }

def isComplete (n : Numeral) : Bool :=
  match n.mode with
  | .zero | .whole | .fraction | .power => true
  | _ => false

def step (n : Numeral) (c : Char) : Progress Numeral Unit :=
  let isMark := c = 'e' || c = 'E'
  match n.mode, digit? c with
  | .sign, some d => .more { n with whole := [d], mode := if d = 0 then .zero else .whole }
  | .zero, some _ => .malformed
  | .whole, some d => .more { n with whole := d :: n.whole }
  | .point, some d | .fraction, some d =>
    .more { n with fraction := d :: n.fraction, mode := .fraction }
  | .mark, some d | .markSign, some d | .power, some d =>
    .more { n with power := d :: n.power, mode := .power }
  | .zero, none | .whole, none =>
    if c = '.' then .more { n with mode := .point }
    else if isMark then .more { n with mode := .mark }
    else .done ()
  | .fraction, none => if isMark then .more { n with mode := .mark } else .done ()
  | .power, none => .done ()
  | .mark, none =>
    if c = '+' || c = '-' then .more { n with powerNegative := c = '-', mode := .markSign }
    else .malformed
  | .sign, none | .point, none | .markSign, none => .malformed

/-- Leading digits that fit 64 bits, and the number of those left over. -/
def gather (digits : List Nat) (significand : Nat) : Nat × Nat :=
  match digits with
  | [] => (significand, 0)
  | d :: ds =>
    if 10 * significand + d < Nat.pow 2 64 then gather ds (10 * significand + d)
    else (significand, ds.length + 1)

def natOf (digits : List Nat) : Nat := digits.foldr (fun d n => 10 * n + d) 0

inductive Value
  | integer (value : Int)
  | floating (negative : Bool) (magnitude : Binary64)
  deriving DecidableEq, Repr

/-- Exponents beyond 31 bits are held at the bound. -/
def clampPower (e : Int) : Int := max (-0x80000000) (min e 0x7FFFFFFF)

/-- `x * 10 ^ e`, by one multiplication or by divisions, each of them rounded. -/
def scale (x : Binary64) (e : Int) : Option Binary64 :=
  let powerOfTen (k : Nat) := (Binary64.ofRatio (Nat.pow 10 k) 1).getD Binary64.zero
  if 0 ≤ e then
    if e ≤ 308 then x.mul (powerOfTen e.toNat)
    else if x.mantissa = 0 then some x else none
  else if e.natAbs ≤ 308 then x.div (powerOfTen e.natAbs)
  else do
    let y ← x.div (powerOfTen 308)
    if e.natAbs ≤ 616 then y.div (powerOfTen (e.natAbs - 308))
    else some Binary64.zero

def value (n : Numeral) : Option Value := do
  let (whole, extra) := gather n.whole.reverse 0
  let plain := n.fraction.isEmpty && n.power.isEmpty
  if plain && extra = 0 && (!n.negative || (0 < whole && whole ≤ Nat.pow 2 63)) then
    return .integer (if n.negative then -whole else whole)
  let (significand, dropped) := gather n.fraction.reverse whole
  let point : Int := extra - (n.fraction.length - dropped : Nat)
  let power := natOf n.power
  if Nat.pow 2 31 ≤ power then
    if significand ≠ 0 && !n.powerNegative then none
    else return .floating n.negative Binary64.zero
  let exponent := clampPower (if n.powerNegative then point - power else point + power)
  let x ← Binary64.ofRatio significand 1
  return .floating n.negative (← scale x exponent)

/-- Numbers from 0.00001 up to sixteen digits are written positionally. -/
def layout : Layout := ⟨-5, 15⟩

def Value.text : Value → String
  | integer value => toString value
  | floating negative magnitude => layout.write negative magnitude

end Numeral

end GuestHost.Json
