import DomainRules.Number.Decimal
import DomainRules.Text.Units

namespace DomainRules.Text

def hexDigit (n : Nat) : Char :=
  if n < 10 then Char.ofNat (0x30 + n) else Char.ofNat (0x57 + n)

def quoteChar (c : Char) : List Char :=
  if c = '"' then ['\\', '"']
  else if c = '\\' then ['\\', '\\']
  else if c.toNat = 0x08 then ['\\', 'b']
  else if c = '\t' then ['\\', 't']
  else if c = '\n' then ['\\', 'n']
  else if c.toNat = 0x0C then ['\\', 'f']
  else if c = '\r' then ['\\', 'r']
  else if c.toNat < 0x20 then
    ['\\', 'u', '0', '0', hexDigit (c.toNat / 16), hexDigit (c.toNat % 16)]
  else [c]

def quote (s : List Char) : List Char := '"' :: (s.flatMap quoteChar ++ ['"'])

end DomainRules.Text

namespace DomainRules

inductive Value where
  | null
  | bool (b : Bool)
  | number (n : Number)
  | text (s : String)
  | list (items : List Value)
  | record (fields : List (String × Value))
  deriving Repr, Inhabited

namespace Value

def text? : Value → Option String
  | text s => some s
  | _ => none

/-- The fields of a value. A list has its items under their numbers, and a text its units. -/
def fields : Value → List (String × Value)
  | record fields => fields
  | list items => items.zipIdx.map fun (item, i) => (toString i, item)
  | text s => (Text.units s.toList).zipIdx.map fun (u, i) =>
    (toString i, text (String.singleton (Text.charOfUnit u)))
  | _ => []

/-- The name of a field that is not written. It holds fields that count for a record without such
fields of its own. -/
def background : String := "__proto__"

mutual

/-- The JSON text of a value. A number that is not finite has none and becomes null. -/
def json : Value → List Char
  | null => "null".toList
  | bool b => (if b then "true" else "false").toList
  | number (.finite units) => Number.text (.finite units)
  | number _ => "null".toList
  | text s => Text.quote s.toList
  | list items => '[' :: (jsonItems items ++ [']'])
  | record fields => '\x7b' :: (jsonFields fields ++ ['\x7d'])

def jsonItems : List Value → List Char
  | [] => []
  | [item] => item.json
  | item :: next :: items => item.json ++ ',' :: jsonItems (next :: items)

def jsonFields : List (String × Value) → List Char
  | [] => []
  | [(key, value)] => Text.quote key.toList ++ ':' :: value.json
  | (key, value) :: next :: fields =>
    Text.quote key.toList ++ ':' :: value.json ++ ',' :: jsonFields (next :: fields)

end

mutual

/-- The plain text of a value: a list is its items with commas between them, in which null is
empty, and all records have one text. A record that takes the name of its text for a field has
none. -/
def plain? : Value → Option (List Char)
  | null => some "null".toList
  | bool b => some (if b then "true" else "false").toList
  | number n => some n.text
  | text s => some s.toList
  | list items => plainItems? items
  | record fields =>
    if fields.any (·.1 = "toString") then none else some "[object Object]".toList

def plainItems? : List Value → Option (List Char)
  | [] => some []
  | [item] => plainItem? item
  | item :: next :: items => do
    let first ← plainItem? item
    let others ← plainItems? (next :: items)
    return first ++ ',' :: others

def plainItem? : Value → Option (List Char)
  | null => some []
  | bool b => some (if b then "true" else "false").toList
  | number n => some n.text
  | text s => some s.toList
  | list items => plainItems? items
  | record fields =>
    if fields.any (·.1 = "toString") then none else some "[object Object]".toList

end

/-- The fields with one more, in the order of their keys; a field of the same key is replaced. -/
def insertField (key : String) (value : Value) : List (String × Value) → List (String × Value)
  | [] => [(key, value)]
  | (other, held) :: fields =>
    if key = other then (key, value) :: fields
    else if Text.unitOrder key other then (key, value) :: (other, held) :: fields
    else (other, held) :: insertField key value fields

mutual

/-- The value with the fields of every record in the order of their keys. -/
def sorted : Value → Value
  | list items => list (sortedItems items)
  | record fields => record (sortedFields fields)
  | value => value

def sortedItems : List Value → List Value
  | [] => []
  | item :: items => item.sorted :: sortedItems items

def sortedFields : List (String × Value) → List (String × Value)
  | [] => []
  | (key, value) :: fields => insertField key value.sorted (sortedFields fields)

end

end Value

end DomainRules
