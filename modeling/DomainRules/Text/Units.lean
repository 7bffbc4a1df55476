/-!
UTF-16 code units: how a text is spelled in them, the text that a list of them spells, the order of
texts by their units, and the capitals of units. A unit that is half of a pair without its partner
spells U+FFFD.
-/
namespace DomainRules.Text

/-- The units of one character: one below U+10000, else a leading and a trailing surrogate. -/
def unitsOfChar (c : Char) : List UInt16 :=
  let n := c.toNat
  if n < 0x10000 then [n.toUInt16]
  else [(0xD800 + (n - 0x10000) / 0x400).toUInt16, (0xDC00 + (n - 0x10000) % 0x400).toUInt16]

def units (s : List Char) : List UInt16 := s.flatMap unitsOfChar

def unitLength (s : List Char) : Nat := (units s).length

/-- The first half of a pair. -/
def isLead (u : UInt16) : Bool := 0xD800 ≤ u && u < 0xDC00

/-- The second half of a pair. -/
def isTrail (u : UInt16) : Bool := 0xDC00 ≤ u && u < 0xE000

def pairCode (lead trail : UInt16) : Nat :=
  0x10000 + (lead.toNat - 0xD800) * 0x400 + (trail.toNat - 0xDC00)

def replacement : Char := Char.ofNat 0xFFFD

def charOfUnit (u : UInt16) : Char :=
  if isLead u || isTrail u then replacement else Char.ofNat u.toNat

def ofUnits : List UInt16 → List Char
  | [] => []
  | [u] => [charOfUnit u]
  | u :: v :: rest =>
    if isLead u && isTrail v then Char.ofNat (pairCode u v) :: ofUnits rest
    else charOfUnit u :: ofUnits (v :: rest)

/-- The unit read as an ASCII sign, or NUL when it is none; a reader branches on it. -/
def sign (u : UInt16) : Char := if u < 0x80 then Char.ofNat u.toNat else Char.ofNat 0

def unitsLt : List UInt16 → List UInt16 → Bool
  | _, [] => false
  | [], _ :: _ => true
  | u :: us, v :: vs => u < v || (u == v && unitsLt us vs)

/-- Order of texts by their units; it differs from the order by code points above U+FFFF. -/
def unitOrder (a b : String) : Bool := unitsLt (units a.toList) (units b.toList)

/-- The capital of a unit, for the letters of ASCII and of Latin-1; any other unit is its own. Two of
the small letters of Latin-1 have their capitals beyond it, and the micro sign has that of mu. -/
def capital (u : UInt16) : UInt16 :=
  if (0x61 ≤ u && u ≤ 0x7A) || (0xE0 ≤ u && u ≤ 0xFE && u != 0xF7) then u - 0x20
  else if u = 0xFF then 0x178
  else if u = 0xB5 || u = 0x3BC then 0x39C
  else u

/-- The units that differ from a unit at most in case. -/
def casesOf (u : UInt16) : List UInt16 :=
  [u, u + 0x20, u - 0x20, 0xB5, 0xFF, 0x178, 0x39C, 0x3BC].filter fun v => capital v == capital u

end DomainRules.Text
