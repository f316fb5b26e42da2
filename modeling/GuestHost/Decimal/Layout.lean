import GuestHost.Decimal.Shortest

/-!
Decimal text of floating numbers: positional for moderate powers of ten, scientific beyond.
-/

namespace GuestHost.Decimal

/-- How a number is written: the leading powers of ten that are written positionally. -/
structure Layout where
  least : Int
  most : Int
  deriving DecidableEq, Repr

namespace Layout

def significand (d : Scientific) : List Char × Int :=
  let digits := Nat.toDigits 10 d.digits
  let kept := (digits.reverse.dropWhile (· == '0')).reverse
  (kept, d.exponent + digits.length - 1)

def positional (digits : List Char) (lead : Int) : List Char :=
  if lead < 0 then
    ['0', '.'] ++ List.replicate ((-lead).toNat - 1) '0' ++ digits
  else
    let whole := digits.take (lead.toNat + 1)
    let rest := digits.drop (lead.toNat + 1)
    whole ++ List.replicate (lead.toNat + 1 - whole.length) '0' ++ ['.'] ++
      (if rest.isEmpty then ['0'] else rest)

def scientific (digits : List Char) (lead : Int) : List Char :=
  let point := match digits with
    | [] => []
    | [d] => [d]
    | d :: ds => d :: '.' :: ds
  let sign := if lead < 0 then '-' else '+'
  point ++ ['e', sign] ++ Nat.toDigits 10 lead.natAbs

def write (l : Layout) (negative : Bool) (x : Binary64) : String :=
  let body :=
    if x.mantissa = 0 then ['0', '.', '0']
    else
      let (digits, lead) := significand x.shortest
      if l.least ≤ lead ∧ lead ≤ l.most then positional digits lead
      else scientific digits lead
  String.ofList (if negative then '-' :: body else body)

end Layout

end GuestHost.Decimal
