import DomainRules.Number.Reading
import DomainRules.Value
/-!
Reading a structured value from its JSON text. Of fields with one name the last value counts, at the
place of the first. A text may spell half of a pair of units, which becomes U+FFFD.
-/
namespace DomainRules.Value

/-- A text under way: its characters, the last one first, and the first half of a pair that waits
for the second half. -/
structure Draft where
  found : List Char := []
  lead : Option UInt16 := none

namespace Draft

/-- The characters, the last one first, when no second half follows. -/
def closed (draft : Draft) : List Char :=
  match draft.lead with
  | some _ => Text.replacement :: draft.found
  | none => draft.found

def push (draft : Draft) (c : Char) : Draft := { found := c :: draft.closed }

def pushUnit (draft : Draft) (u : UInt16) : Draft :=
  match draft.lead, Text.isTrail u with
  | some lead, true => { found := Char.ofNat (Text.pairCode lead u) :: draft.found }
  | _, _ =>
    if Text.isLead u then { found := draft.closed, lead := some u }
    else draft.push (Text.charOfUnit u)

end Draft

def escaped? (c : Char) : Option Char :=
  match c with
  | '"' => some '"'
  | '\\' => some '\\'
  | '/' => some '/'
  | 'b' => some (Char.ofNat 0x08)
  | 'f' => some (Char.ofNat 0x0C)
  | 'n' => some '\n'
  | 'r' => some '\r'
  | 't' => some '\t'
  | _ => none

/-- Reads a text behind its opening quote, up to the closing one. -/
def quoted? (draft : Draft) : List Char → Option (String × List Char)
  | [] => none
  | '"' :: rest => some (String.ofList draft.closed.reverse, rest)
  | '\\' :: 'u' :: a :: b :: c :: d :: rest => do
    let unit ← Number.natOf? 16 [a, b, c, d]
    quoted? (draft.pushUnit unit.toUInt16) rest
  | '\\' :: c :: rest => do
    let spelled ← escaped? c
    quoted? (draft.push spelled) rest
  | c :: rest => if c.toNat < 0x20 ∨ c = '\\' then none else quoted? (draft.push c) rest

def skip (s : List Char) : List Char :=
  s.dropWhile fun c => c = ' ' || c = '\t' || c = '\n' || c = '\r'

/-- Whether digits and what follows them are the front of an unsigned number: no needless zero in
front, and digits behind the point. -/
def isNumeral (s : List Char) : Bool :=
  let whole := s.takeWhile Number.isDigit
  !whole.isEmpty && (whole = ['0'] || whole.head? ≠ some '0') &&
    match s.dropWhile Number.isDigit with
    | '.' :: fraction => (fraction.head?.map Number.isDigit).getD false
    | _ => true

def number? (s : List Char) : Option Number :=
  match s with
  | '-' :: rest => if isNumeral rest then Number.decimalOf? true rest else none
  | _ => if isNumeral s then Number.decimalOf? false s else none

def isNumberChar (c : Char) : Bool :=
  Number.isDigit c || c = '-' || c = '+' || c = '.' || c = 'e' || c = 'E'

/-- The fields with one more. A field of the same name is replaced in its place. -/
def setField (key : String) (value : Value) : List (String × Value) → List (String × Value)
  | [] => [(key, value)]
  | (other, held) :: fields =>
    if key = other then (key, value) :: fields else (other, held) :: setField key value fields

mutual

/-- The value at the front of a text, and the rest. The first argument bounds the number of values
read one within or behind the other. -/
def read? : Nat → List Char → Option (Value × List Char)
  | 0, _ => none
  | fuel + 1, input =>
    match skip input with
    | '"' :: rest => (quoted? {} rest).map fun (s, rest) => (text s, rest)
    | '[' :: rest => match skip rest with
      | ']' :: rest => some (list [], rest)
      | rest => (readItems? fuel rest).map fun (items, rest) => (list items, rest)
    | '\x7b' :: rest => match skip rest with
      | '\x7d' :: rest => some (record [], rest)
      | rest => (readFields? fuel [] rest).map fun (fields, rest) => (record fields, rest)
    | 'n' :: 'u' :: 'l' :: 'l' :: rest => some (null, rest)
    | 't' :: 'r' :: 'u' :: 'e' :: rest => some (bool true, rest)
    | 'f' :: 'a' :: 'l' :: 's' :: 'e' :: rest => some (bool false, rest)
    | rest =>
      (number? (rest.takeWhile isNumberChar)).map fun n => (number n, rest.dropWhile isNumberChar)

def readItems? : Nat → List Char → Option (List Value × List Char)
  | 0, _ => none
  | fuel + 1, input => do
    let (item, rest) ← read? fuel input
    match skip rest with
    | ',' :: rest =>
      let (items, rest) ← readItems? fuel rest
      return (item :: items, rest)
    | ']' :: rest => return ([item], rest)
    | _ => none

/-- The fields of a record behind those that are read already, up to its closing brace, and the
rest. -/
def readFields? : Nat → List (String × Value) → List Char →
    Option (List (String × Value) × List Char)
  | 0, _, _ => none
  | fuel + 1, before, input =>
    match skip input with
    | '"' :: rest => do
      let (key, rest) ← quoted? {} rest
      match skip rest with
      | ':' :: rest =>
        let (value, rest) ← read? fuel rest
        let fields := setField key value before
        match skip rest with
        | ',' :: rest => readFields? fuel fields rest
        | '\x7d' :: rest => return (fields, rest)
        | _ => none
      | _ => none
    | _ => none

end

/-- The value that a text spells; nothing but blanks may be left over. Every value takes a character
and at most one step within a list or record, so twice the number of characters is enough. -/
def ofJson? (s : List Char) : Option Value :=
  match read? (2 * s.length + 2) s with
  | some (value, rest) => if (skip rest).isEmpty then some value else none
  | none => none

end DomainRules.Value
