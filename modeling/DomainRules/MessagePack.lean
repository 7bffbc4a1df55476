import DomainRules.Bytes
import DomainRules.Number.Basic
import DomainRules.Number.Decimal
import DomainRules.Text.Utf8

namespace DomainRules

inductive Packed where
  | null
  | bool (b : Bool)
  | number (n : Number)
  /-- An integer of 64 bits, which is kept apart from the numbers. -/
  | wide (n : Int)
  /-- No value at all. -/
  | missing
  /-- A value of another type, of which only this is known: whether it has items. -/
  | foreign (hasItems : Bool)
  | text (s : String)
  | bytes (data : Bytes)
  | list (items : List Packed)
  | record (fields : List (String × Packed))
  deriving Repr

namespace Packed

/-- The value of a field. Of fields with one name the last counts. -/
def field? (name : String) : Packed → Option Packed
  | record fields => fields.reverse.lookup name
  | _ => none

def textHeader (length : Nat) : Bytes :=
  if length < 0x20 then [(0xA0 + length).toUInt8]
  else if length < 0x100 then 0xD9 :: Bytes.ofNat 1 length
  else if length < 0x10000 then 0xDA :: Bytes.ofNat 2 length
  else 0xDB :: Bytes.ofNat 4 length

def packText (s : String) : Bytes :=
  let data := Text.utf8 s.toList
  textHeader data.length ++ data

def packBytes (data : Bytes) : Bytes :=
  let length := data.length
  let header :=
    if length < 0x100 then 0xC4 :: Bytes.ofNat 1 length
    else if length < 0x10000 then 0xC5 :: Bytes.ofNat 2 length
    else 0xC6 :: Bytes.ofNat 4 length
  header ++ data

def integer? : Number → Option Int
  | .finite units => if units % Number.one = 0 then some (units / Number.one) else none
  | _ => none

/-- The bytes of a number: the shortest integer format that holds it, or binary64. -/
def packNumber (n : Number) : Bytes :=
  let float := 0xCB :: Bytes.ofNat 8 n.bits
  match integer? n with
  | none => float
  | some (.ofNat k) =>
    if k < 0x80 then [k.toUInt8]
    else if k < 0x100 then 0xCC :: Bytes.ofNat 1 k
    else if k < 0x10000 then 0xCD :: Bytes.ofNat 2 k
    else if k < 0x100000000 then 0xCE :: Bytes.ofNat 4 k
    else float
  | some (.negSucc k) =>
    -- The number is minus one minus k.
    if k < 0x20 then Bytes.ofNat 1 (0xFF - k)
    else if k < 0x80 then 0xD0 :: Bytes.ofNat 1 (0xFF - k)
    else if k < 0x8000 then 0xD1 :: Bytes.ofNat 2 (0xFFFF - k)
    else if k < 0x80000000 then 0xD2 :: Bytes.ofNat 4 (0xFFFFFFFF - k)
    else float

end Packed

end DomainRules
