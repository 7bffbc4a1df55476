import DomainRules.Number.Basic
/-!
Decimal text of binary64 numbers: the fewest digits that read back as the number, written out for
middling magnitudes and with an exponent for others.
-/
namespace DomainRules.Number

/-- Whether `c` times a power of ten rounds to so many units. -/
def readsBack (units c : Nat) (exponent : Int) : Bool :=
  roundQuotient (c * tenTo exponent.toNat * one) (tenTo (-exponent).toNat) == units

/-- The neighbour at a power of ten that reads back, the nearer one first, and of two that are
equally near the even one. -/
def hit? (units : Nat) (exponent : Int) : Option Nat :=
  let n := units * tenTo (-exponent).toNat
  let d := one * tenTo exponent.toNat
  let below := n / d
  let isAboveFirst := d < 2 * (n % d) || (d = 2 * (n % d) && below % 2 = 1)
  let candidates := if isAboveFirst then [below + 1, below] else [below, below + 1]
  candidates.find? fun c => c ≠ 0 && readsBack units c exponent

/-- The place of the first digit: the least exponent whose power of ten exceeds the units. -/
def magnitude (units : Nat) : Int :=
  if one ≤ units then (Nat.toDigits 10 (units / one)).length
  else
    let zeros? := (List.range 400).find? fun z => one ≤ units * tenTo (z + 1)
    Int.neg (zeros?.getD 0)

/-- The number of the fewest digits that reads back, and the power of ten it is multiplied by. -/
def shortest (units : Nat) : Nat × Int :=
  let top := magnitude units
  let found := (List.range 17).findSome? fun i =>
    let exponent := top - ((i + 1 : Nat) : Int)
    (hit? units exponent).map fun c => (c, exponent)
  found.getD (0, 0)

/-- The digits with the point at a place. Very large and very small numbers have an exponent. -/
def layOut (digits : List Char) (point : Int) : List Char :=
  let count : Int := digits.length
  if count ≤ point ∧ point ≤ 21 then digits ++ List.replicate (point - count).toNat '0'
  else if 0 < point ∧ point ≤ 21 then
    digits.take point.toNat ++ '.' :: digits.drop point.toNat
  else if -6 < point ∧ point ≤ 0 then
    '0' :: '.' :: (List.replicate (-point).toNat '0' ++ digits)
  else
    let sign := if point - 1 < 0 then '-' else '+'
    let exponent := Nat.toDigits 10 (point - 1).natAbs
    let fraction := match digits.drop 1 with
      | [] => []
      | rest => '.' :: rest
    digits.take 1 ++ fraction ++ 'e' :: sign :: exponent

def textOfUnits (units : Nat) : List Char :=
  let (c, exponent) := shortest units
  let digits := Nat.toDigits 10 c
  layOut (digits.reverse.dropWhile (· = '0')).reverse (digits.length + exponent)

def text : Number → List Char
  | nan => "NaN".toList
  | infinite negative => (if negative then ['-'] else []) ++ "Infinity".toList
  | finite units =>
    if units = 0 then ['0']
    else (if units < 0 then ['-'] else []) ++ textOfUnits units.natAbs

end DomainRules.Number
