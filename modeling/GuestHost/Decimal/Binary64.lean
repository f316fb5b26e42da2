/-!
Non-negative numbers of the 64-bit binary floating format, in exact arithmetic: a fraction is
rounded to the nearest number of the format, and of two equally near ones to the even.
-/

namespace GuestHost.Decimal

/-- The value is `mantissa * 2 ^ exponent`. -/
structure Binary64 where
  mantissa : Nat
  exponent : Int
  deriving DecidableEq, Repr

namespace Binary64

def minExponent : Int := -1074

def maxExponent : Int := 971

def zero : Binary64 := ⟨0, minExponent⟩

def num (x : Binary64) : Nat := x.mantissa * Nat.pow 2 x.exponent.toNat

def den (x : Binary64) : Nat := Nat.pow 2 (-x.exponent).toNat

/-- The quotient to the nearest integer, a half to the even neighbour. -/
def roundHalfEven (num den : Nat) : Nat :=
  let q := num / den
  let twice := 2 * (num % den)
  if twice < den then q
  else if den < twice then q + 1
  else q + q % 2

def scaled (num den : Nat) (e : Int) : Nat × Nat :=
  (num * Nat.pow 2 (-e).toNat, den * Nat.pow 2 e.toNat)

/-- The exponent with which `num / den` fills a mantissa, or the least one there is. -/
def exponentFor (num den : Nat) : Int :=
  let e : Int := (num.log2 : Int) - den.log2 - 53
  let (n, d) := scaled num den e
  max minExponent (if n / d < Nat.pow 2 53 then e else e + 1)

/-- The nearest number to `num / den`; none when it lies beyond the largest. -/
def ofRatio (num den : Nat) : Option Binary64 :=
  if num = 0 then some zero
  else
    let e := exponentFor num den
    let (n, d) := scaled num den e
    let m := roundHalfEven n d
    let x : Binary64 := if m = Nat.pow 2 53 then ⟨Nat.pow 2 52, e + 1⟩ else ⟨m, e⟩
    if x.exponent ≤ maxExponent then some x else none

def mul (x y : Binary64) : Option Binary64 := ofRatio (x.num * y.num) (x.den * y.den)

def div (x y : Binary64) : Option Binary64 := ofRatio (x.num * y.den) (x.den * y.num)

end Binary64

end GuestHost.Decimal
