import GuestHost.Decimal.Binary64

/-!
The shortest decimal that reads back as a given number, and of the shortest the nearest.
-/

namespace GuestHost.Decimal

/-- The value is `digits * 10 ^ exponent`. -/
structure Scientific where
  digits : Nat
  exponent : Int
  deriving DecidableEq, Repr

namespace Scientific

def num (d : Scientific) : Nat := d.digits * Nat.pow 10 d.exponent.toNat

def den (d : Scientific) : Nat := Nat.pow 10 (-d.exponent).toNat

end Scientific

namespace Binary64

/-- Ends of the interval of values that round to `x`, in quarter units of its last place. -/
def ends (x : Binary64) : Nat × Nat :=
  let below := if x.mantissa = Nat.pow 2 52 ∧ minExponent < x.exponent then 1 else 2
  (4 * x.mantissa - below, 4 * x.mantissa + 2)

def contains (x : Binary64) (d : Scientific) : Bool :=
  let left := (ends x).1 * Nat.pow 2 x.exponent.toNat * d.den
  let mid := 4 * d.num * x.den
  let right := (ends x).2 * Nat.pow 2 x.exponent.toNat * d.den
  if x.mantissa % 2 = 0 then left ≤ mid && mid ≤ right else left < mid && mid < right

/-- The power of ten at or below `num / den`, found from below. -/
def leadingPower (num den : Nat) : Int :=
  if den ≤ num then ((Nat.toDigits 10 (num / den)).length : Int) - 1
  else
    let zeros := ((List.range 400).find? fun k => den ≤ num * Nat.pow 10 (k + 1)).getD 0
    Int.negSucc zeros

def neighbours (x : Binary64) (e : Int) : List Scientific :=
  let n := x.num * Nat.pow 10 (-e).toNat
  let d := x.den * Nat.pow 10 e.toNat
  let q := n / d
  let twice := 2 * (n % d)
  let low : Scientific := ⟨q, e⟩
  let high : Scientific := ⟨q + 1, e⟩
  if twice < d ∨ (twice = d ∧ q % 2 = 0) then [low, high] else [high, low]

/-- Tries one digit, then two, and so on; seventeen always suffice. -/
def shortest (x : Binary64) : Scientific :=
  let lead := leadingPower x.num x.den
  let grids := (List.range 17).flatMap fun (n : Nat) => neighbours x (lead - n)
  (grids.find? fun d => d.digits ≠ 0 && contains x d).getD ⟨0, 0⟩

end Binary64

end GuestHost.Decimal
