/-!
Punycode: a text spelled in ASCII. The ASCII characters come first, in order. Then every other one is
a number in digits of base 36 that says how far its code and place are from those of the one before;
the last digit of a number is known by a threshold that adapts to the sizes of the numbers before.
-/
namespace DomainRules.Text.Punycode

/-- The value of a digit: letters come before figures. -/
def digit? (c : Char) : Option Nat :=
  let n := c.toNat
  if 0x61 ≤ n ∧ n ≤ 0x7A then some (n - 0x61)
  else if 0x41 ≤ n ∧ n ≤ 0x5A then some (n - 0x41)
  else if 0x30 ≤ n ∧ n ≤ 0x39 then some (n - 0x30 + 26)
  else none

/-- The threshold at a place: a digit below it ends its number. -/
def threshold (bias place : Nat) : Nat := min 26 (max 1 (place - bias))

/-- Brings a difference down to the greatest one that needs no further place. -/
def shrink (delta places : Nat) : Nat × Nat :=
  if 455 < delta then shrink (delta / 35) (places + 36) else (delta, places)
termination_by delta
decreasing_by omega

/-- The bias after a number, given how many characters there are by then. -/
def adapt (delta count : Nat) (isFirst : Bool) : Nat :=
  let scaled := if isFirst then delta / 700 else delta / 2
  let (rest, places) := shrink (scaled + scaled / count) 0
  places + 36 * rest / (rest + 38)

structure Progress where
  codes : List Nat
  /-- The code of the last character that is not ASCII. -/
  code : Nat := 0x80
  bias : Nat := 72
  /-- Where the number under way began. -/
  start : Nat := 0
  /-- The number under way. -/
  sum : Nat := 0
  /-- What the next digit counts. -/
  weight : Nat := 1
  /-- The place of the next digit. -/
  place : Nat := 36

namespace Progress

def limit : Nat := 0x7FFFFFFF

/-- A number is complete: it says which character comes where. -/
def placed? (progress : Progress) (sum : Nat) : Option Progress :=
  let count := progress.codes.length + 1
  let code := progress.code + sum / count
  let index := sum % count
  if limit < code then none
  else some {
    codes := progress.codes.take index ++ code :: progress.codes.drop index
    code
    bias := adapt (sum - progress.start) count (progress.start = 0)
    start := index + 1
    sum := index + 1 }

def step? (progress : Progress) (c : Char) : Option Progress := do
  let digit ← digit? c
  let sum := progress.sum + digit * progress.weight
  let threshold := threshold progress.bias progress.place
  let weight := progress.weight * (36 - threshold)
  if limit < sum then none
  else if digit < threshold then progress.placed? sum
  else if limit < weight then none
  else return { progress with sum, weight, place := progress.place + 36 }

end Progress

def charOf? (code : Nat) : Option Char :=
  if (Char.ofNat code).toNat = code then some (Char.ofNat code) else none

/-- The text that some ASCII characters spell. The last hyphen stands between the ASCII characters
and the numbers. -/
def decode? (s : List Char) : Option (List Char) := do
  let numbers := (s.reverse.takeWhile (· ≠ '-')).reverse
  let plain := (s.take (s.length - numbers.length)).dropLast
  let progress ← numbers.foldlM Progress.step? { codes := plain.map Char.toNat : Progress }
  if progress.weight = 1 then progress.codes.mapM charOf? else none

end DomainRules.Text.Punycode
