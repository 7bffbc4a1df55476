/-!
Binary64 numbers. Every finite one is a whole multiple of the least positive one, so it is kept as
an integer, and arithmetic is exact integer arithmetic followed by rounding. The two zeros are one.
-/
namespace DomainRules

/-- A binary64 number. -/
inductive Number where
  | nan
  | infinite (negative : Bool)
  /-- So many times the least positive number. -/
  | finite (units : Int)
  deriving DecidableEq, Repr

namespace Number

def twoTo (n : Nat) : Nat := Nat.pow 2 n

def tenTo (n : Nat) : Nat := Nat.pow 10 n

/-- The quotient rounded to the nearest natural number; a tie goes to the even neighbour. -/
def divHalfEven (n d : Nat) : Nat :=
  let q := n / d
  let twice := 2 * (n % d)
  if twice < d then q
  else if d < twice then q + 1
  else if q % 2 = 0 then q else q + 1

def precision : Nat := 53

/-- The quotient rounded to as many binary digits as a significand has, counted from the first. -/
def roundQuotient (n d : Nat) : Nat :=
  let step := twoTo ((n / d).log2 + 1 - precision)
  divHalfEven n (d * step) * step

/-- The least natural number that is too large for a finite value. It stands for infinity. -/
def overflow : Nat := twoTo 1024

def nearestNat (n : Nat) : Nat := min (roundQuotient n 1) overflow

/-- The value that a run of decimal digits has when every step is rounded. -/
def accumulateDigits (digits : List Nat) : Nat :=
  digits.foldl (fun value digit => nearestNat (nearestNat (10 * value) + digit)) 0

/-- How many least positive numbers make one. -/
def one : Nat := twoTo 1074

/-- The number of a sign and a rounded magnitude in units. -/
def ofMagnitude (negative : Bool) (units : Nat) : Number :=
  if overflow * one ≤ units then infinite negative
  else finite (if negative then -(units : Int) else units)

def ofQuotient (negative : Bool) (n d : Nat) : Number :=
  ofMagnitude negative (roundQuotient (n * one) d)

def ofUnits (units : Int) : Number :=
  ofMagnitude (units < 0) (roundQuotient units.natAbs 1)

def ofInt (n : Int) : Number := ofUnits (n * one)

def ofNat (n : Nat) : Number := ofInt n

/-- The number nearest to `m` times a power of ten. An exponent far outside the range of finite
numbers is not computed. -/
def ofDecimal (negative : Bool) (m : Nat) (exponent : Int) : Number :=
  let digits : Int := m.log2 / 3 + 1
  if m = 0 ∨ exponent + digits < -400 then finite 0
  else if 400 < exponent then infinite negative
  else ofQuotient negative (m * tenTo exponent.toNat) (tenTo (-exponent).toNat)

def add : Number → Number → Number
  | finite a, finite b => ofUnits (a + b)
  | nan, _ => nan
  | _, nan => nan
  | infinite a, infinite b => if a = b then infinite a else nan
  | infinite a, finite _ => infinite a
  | finite _, infinite b => infinite b

def neg : Number → Number
  | finite a => finite (-a)
  | nan => nan
  | infinite a => infinite !a

def sub (a b : Number) : Number := a.add b.neg

/-- Whether the first number is less than the second; no number compares with the one that is
none. -/
def lt : Number → Number → Bool
  | finite a, finite b => a < b
  | finite _, infinite negative => !negative
  | infinite negative, finite _ => negative
  | infinite a, infinite b => a && !b
  | nan, _ => false
  | _, nan => false

def toNat? : Number → Option Nat
  | finite units => if 0 ≤ units ∧ units % one = 0 then some (units / one).toNat else none
  | _ => none

/-- The number of a bit pattern with so many bits for the exponent and for the fraction. No format
wider than binary64 is meant. -/
def ofBits (exponentWidth fractionWidth bits : Nat) : Number :=
  let fraction := bits % twoTo fractionWidth
  let exponent := bits / twoTo fractionWidth % twoTo exponentWidth
  let negative : Bool := bits / twoTo (fractionWidth + exponentWidth) % 2 = 1
  -- The least positive number of the format.
  let least := twoTo (1076 - twoTo (exponentWidth - 1) - fractionWidth)
  let signed (units : Nat) : Number := finite (if negative then -(units : Int) else units)
  if exponent = twoTo exponentWidth - 1 then
    if fraction = 0 then infinite negative else nan
  else if exponent = 0 then signed (fraction * least)
  else signed ((twoTo fractionWidth + fraction) * twoTo (exponent - 1) * least)

/-- The bit pattern of a magnitude in least positive numbers. -/
def magnitudeBits (units : Nat) : Nat :=
  if units < twoTo 52 then units
  else
    let shift := units.log2 - 52
    (shift + 1) * twoTo 52 + (units / twoTo shift - twoTo 52)

def bits : Number → Nat
  | nan => 0x7FF8000000000000
  | infinite false => 0x7FF0000000000000
  | infinite true => 0xFFF0000000000000
  | finite units => (if units < 0 then twoTo 63 else 0) + magnitudeBits units.natAbs

end Number

end DomainRules
