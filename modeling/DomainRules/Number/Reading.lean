import DomainRules.Number.Basic
import DomainRules.Text.Blank
/-!
Reading a number from a text. Blanks around it are ignored and the empty text is zero. A whole
number may be hexadecimal, octal or binary, and then it has no sign; a decimal number may have a
sign, a fraction and an exponent. Any other text is no number.
-/
namespace DomainRules.Number

open Text

def digitOf? (base : Nat) (c : Char) : Option Nat :=
  let n := c.toNat
  let value :=
    if 0x30 ≤ n ∧ n ≤ 0x39 then some (n - 0x30)
    else if 0x41 ≤ n ∧ n ≤ 0x46 then some (n - 0x37)
    else if 0x61 ≤ n ∧ n ≤ 0x66 then some (n - 0x57)
    else none
  value.filter (· < base)

/-- The natural number that digits spell, if all of them are digits of the base. -/
def natOf? (base : Nat) (digits : List Char) : Option Nat :=
  digits.foldl (fun value? c => do
    let value ← value?
    let digit ← digitOf? base c
    return base * value + digit) (some 0)

def isDigit (c : Char) : Bool := (digitOf? 10 c).isSome

/-- The exponent that follows the digits; there may be none. -/
def exponentOf? : List Char → Option Int
  | [] => some 0
  | mark :: rest =>
    if mark = 'e' ∨ mark = 'E' then
      let (negative, digits) := match rest with
        | '-' :: digits => (true, digits)
        | '+' :: digits => (false, digits)
        | digits => (false, digits)
      if digits.isEmpty then none
      else (natOf? 10 digits).map fun (n : Nat) => if negative then -(n : Int) else n
    else none

def decimalOf? (negative : Bool) (s : List Char) : Option Number :=
  if s = "Infinity".toList then some (infinite negative)
  else
    let whole := s.takeWhile isDigit
    let behind := s.dropWhile isDigit
    let (fraction, rest) := match behind with
      | '.' :: more => (more.takeWhile isDigit, more.dropWhile isDigit)
      | _ => ([], behind)
    if whole.isEmpty && fraction.isEmpty then none
    else do
      let exponent ← exponentOf? rest
      let m ← natOf? 10 (whole ++ fraction)
      return ofDecimal negative m (exponent - fraction.length)

/-- The number that a text without blanks around it spells. -/
def ofTrimmed? (s : List Char) : Option Number :=
  match s with
  | [] => some (finite 0)
  | '0' :: mark :: rest =>
    let base? := match mark with
      | 'x' => some 16
      | 'X' => some 16
      | 'o' => some 8
      | 'O' => some 8
      | 'b' => some 2
      | 'B' => some 2
      | _ => none
    match base? with
    | some base => if rest.isEmpty then none else (natOf? base rest).map ofNat
    | none => decimalOf? false s
  | '-' :: rest => decimalOf? true rest
  | '+' :: rest => decimalOf? false rest
  | _ => decimalOf? false s

/-- The number that a text spells, or the number that is none. -/
def ofText (s : List Char) : Number := (ofTrimmed? (trim s)).getD nan

/-- The number that the longest beginning of a text spells as a decimal number, or the number that
is none. Blanks in front are ignored, and the empty text is none. -/
def ofBeginning (s : List Char) : Number :=
  let text := trimStart s
  let isSpelled (n : Nat) : Option Number :=
    match text.take n with
    | [] => none
    | '-' :: rest => decimalOf? true rest
    | '+' :: rest => decimalOf? false rest
    | beginning => decimalOf? false beginning
  ((List.range (text.length + 1)).reverse.findSome? isSpelled).getD nan

end DomainRules.Number
