import DomainRules.MessagePack
import DomainRules.Regex.Loose
import DomainRules.Text.Units
/-!
Reading MessagePack. Extensions give values of other types, and they change how later values are
read: a layout gives the names of fields to records that follow, a mark lets later values repeat one,
and a bundle holds the texts of a value in one place.
-/
namespace DomainRules.Packed

/-- The names of the fields of a kind of records. -/
structure Layout where
  names : List String
  /-- Whether records of the layout have a second byte, which may lead to another layout. -/
  isWide : Bool

/-- A value that was marked to be repeated. -/
structure Marked where
  mark : Nat
  /-- The value, once it was read. -/
  value : Option Packed
  /-- Whether the value is repeated within itself. -/
  isCyclic : Bool

/-- Two texts of which values are pieces. -/
structure Bundle where
  first : List UInt16
  second : List UInt16
  behind : Bytes

/-- The bytes that are left, and what was learned from those before. -/
structure Reader where
  rest : Bytes
  layouts : List (Int × Layout) := []
  marked : List Marked := []
  bundle : Option Bundle := none

/-- What the tag of a value announces. -/
inductive Header where
  | whole (value : Packed)
  | text (length : Nat)
  | bytes (length : Nat)
  | list (length : Nat)
  | record (length : Nat)
  /-- A record of a layout that was given before, or else a number. -/
  | known (n : Nat)
  /-- A piece of a bundle, if there is one. -/
  | piece
  | extension (length : Nat)
  /-- An extension with no more than two bytes, which may give a layout. -/
  | small (length : Nat)
  deriving Repr

def split? (length : Nat) (bytes : Bytes) : Option (Bytes × Bytes) :=
  if length ≤ bytes.length then some (bytes.take length, bytes.drop length) else none

/-- The header that a number of the given width makes, the most significant byte first. -/
def measured? (width : Nat) (header : Nat → Header) (bytes : Bytes) : Option (Header × Bytes) :=
  (split? width bytes).map fun (n, rest) => (header n.bigEndian, rest)

/-- The integer that a pattern of so many bytes stands for, if the first bit means minus. -/
def signed (width n : Nat) : Int :=
  if n < Number.twoTo (8 * width - 1) then n else (n : Int) - Number.twoTo (8 * width)

def header? : Bytes → Option (Header × Bytes)
  | [] => none
  | tag :: rest =>
    let n := tag.toNat
    if n < 0x40 then some (.whole (number (.ofNat n)), rest)
    else if n < 0x80 then some (.known n, rest)
    else if n < 0x90 then some (.record (n - 0x80), rest)
    else if n < 0xA0 then some (.list (n - 0x90), rest)
    else if n < 0xC0 then some (.text (n - 0xA0), rest)
    else if 0xE0 ≤ n then some (.whole (number (.ofInt (signed 1 n))), rest)
    else match n with
      | 0xC0 => some (.whole null, rest)
      | 0xC1 => some (.piece, rest)
      | 0xC2 => some (.whole (bool false), rest)
      | 0xC3 => some (.whole (bool true), rest)
      | 0xC4 => measured? 1 .bytes rest
      | 0xC5 => measured? 2 .bytes rest
      | 0xC6 => measured? 4 .bytes rest
      | 0xC7 => measured? 1 .extension rest
      | 0xC8 => measured? 2 .extension rest
      | 0xC9 => measured? 4 .extension rest
      | 0xCA => measured? 4 (fun bits => .whole (number (.ofBits 8 23 bits))) rest
      | 0xCB => measured? 8 (fun bits => .whole (number (.ofBits 11 52 bits))) rest
      | 0xCC => measured? 1 (fun n => .whole (number (.ofNat n))) rest
      | 0xCD => measured? 2 (fun n => .whole (number (.ofNat n))) rest
      | 0xCE => measured? 4 (fun n => .whole (number (.ofNat n))) rest
      | 0xCF => measured? 8 (fun n => .whole (wide n)) rest
      | 0xD0 => measured? 1 (fun n => .whole (number (.ofInt (signed 1 n)))) rest
      | 0xD1 => measured? 2 (fun n => .whole (number (.ofInt (signed 2 n)))) rest
      | 0xD2 => measured? 4 (fun n => .whole (number (.ofInt (signed 4 n)))) rest
      | 0xD3 => measured? 8 (fun n => .whole (wide (signed 8 n))) rest
      | 0xD4 => some (.small 1, rest)
      | 0xD5 => some (.small 2, rest)
      | 0xD6 => some (.extension 4, rest)
      | 0xD7 => some (.extension 8, rest)
      | 0xD8 => some (.extension 16, rest)
      | 0xD9 => measured? 1 .text rest
      | 0xDA => measured? 2 .text rest
      | 0xDB => measured? 4 .text rest
      | 0xDC => measured? 2 .list rest
      | 0xDD => measured? 4 .list rest
      | 0xDE => measured? 2 .record rest
      | 0xDF => measured? 4 .record rest
      | _ => none

/-- The name of a field that a value gives; values with parts name none. -/
def fieldName? : Packed → Option String
  | text s => some s
  | number n => some (String.ofList n.text)
  | wide n => some (toString n)
  | bool b => some (if b then "true" else "false")
  | null => some "null"
  | missing => some "undefined"
  | _ => none

def layoutNames? : Packed → Option (List String)
  | list items => items.mapM fieldName?
  | bytes data => some (data.map fun b => toString b.toNat)
  | _ => none

/-- Whether a set can be made of the items of a value. No value has no items. -/
def hasItems : Packed → Bool
  | null => true
  | missing => true
  | text _ => true
  | bytes _ => true
  | list _ => true
  | foreign hasItems => hasItems
  | _ => false

def itemAt (index : Nat) : Packed → Packed
  | list items => items.getD index missing
  | text s => match (Text.units s.toList)[index]? with
    | some u => text (String.singleton (Text.charOfUnit u))
    | none => missing
  | bytes data => match data[index]? with
    | some b => number (.ofNat b.toNat)
    | none => missing
  | _ => missing

/-- Whether flags of a regular expression are known, each given once, and not two that exclude each
other. -/
def areFlags (flags : List Char) : Bool :=
  flags.all (fun c => "dgimsuvy".toList.contains c) && flags.eraseDups.length = flags.length &&
    !(flags.contains 'u' && flags.contains 'v')

/-- Whether the items of a value are the text of a regular expression and its flags. Expressions of
the grammars that flags select are taken for valid. -/
def isExpression (value : Packed) : Bool :=
  let flags? := match value.itemAt 1 with
    | missing => some []
    | flags => flags.fieldName?.map String.toList
  match flags?, value.itemAt 0 with
  | none, _ => false
  | some flags, missing => areFlags flags
  | some flags, pattern =>
    areFlags flags && (flags.contains 'u' || flags.contains 'v' ||
      match pattern.fieldName? with
      | some source => (Regex.ofLooseUnits (Text.units source.toList)).isOk
      | none => true)

/-- The number under which a layout is kept, if it is given by two bytes. -/
def layoutNumber (low high : Nat) : Int :=
  if low < 0x20 then -((0x20 * high + low : Nat) : Int) else (0x20 * high + low : Nat)

/-- How many bytes an item of an array of numbers has, by the kind of the array. -/
def itemWidth? : Nat → Option Nat
  | 0 => some 1
  | 2 => some 1
  | 3 => some 2
  | 4 => some 2
  | 5 => some 4
  | 6 => some 4
  | 7 => some 4
  | 8 => some 8
  | 9 => some 8
  | 10 => some 8
  | _ => none

/-- The array that the data of an extension are. The first byte says what the items are; arrays of
bytes are a type of their own. -/
def array? : Bytes → Option Packed
  | [] => none
  | kind :: data =>
    if kind = 1 then some (bytes data)
    else if kind = 16 ∨ kind = 17 then some (foreign false)
    else match itemWidth? kind.toNat with
      | some width => if data.length % width = 0 then some (foreign true) else none
      | none => none

def bundled? (bytes : Bytes) : Option (List UInt16 × Bytes) := do
  match ← header? bytes with
  | (.text length, rest) =>
    let (s, rest) ← split? length rest
    return (Text.units (Text.ofUtf8 s), rest)
  | _ => none

namespace Reader

/-- The reader with a bundle whose data are given and whose texts are so many bytes further on. -/
def openBundle? (reader : Reader) (data : Bytes) : Option Reader := do
  let size := Bytes.bigEndian (data.take 4)
  if data.length < 4 ∨ size < data.length ∨ reader.rest.length < size - data.length then none
  else
    let (first, rest) ← bundled? (reader.rest.drop (size - data.length))
    let (second, rest) ← bundled? rest
    return { reader with bundle := some { first, second, behind := rest } }

/-- Takes a piece of so many units off a bundle, a negative number of them off its first text. -/
def takePiece? (reader : Reader) (bundle : Bundle) : Packed → Option (Packed × Reader)
  | .number n =>
    let count := (integer? n).getD 0
    let piece (units : List UInt16) := text (String.ofList (Text.ofUnits (units.take count.natAbs)))
    if 0 < count then
      some (piece bundle.second,
        { reader with bundle := some { bundle with second := bundle.second.drop count.natAbs } })
    else
      some (piece bundle.first,
        { reader with bundle := some { bundle with first := bundle.first.drop count.natAbs } })
  | _ => none

def beginMarked (reader : Reader) (mark : Nat) : Reader :=
  { reader with marked := { mark, value := none, isCyclic := false } :: reader.marked }

/-- Ends a value that is marked. A record whose fields are named one by one cannot be cyclic. -/
def endMarked? (reader : Reader) (mark : Nat) (hasOwnNames : Bool) (value : Packed) :
    Option Reader :=
  match reader.marked.find? (·.mark = mark) with
  | none => none
  | some entry =>
    if entry.isCyclic && hasOwnNames then none
    else some { reader with
      marked := { entry with value := some value } :: reader.marked.filter (·.mark ≠ mark) }

/-- Repeats a value that was marked. Within itself it stands for an object. -/
def repeat? (reader : Reader) (mark : Nat) : Option (Packed × Reader) :=
  match reader.marked.find? (·.mark = mark) with
  | none => none
  | some { value := some value, .. } => some (value, reader)
  | some entry =>
    some (foreign true, { reader with
      marked := { entry with isCyclic := true } :: reader.marked.filter (·.mark ≠ mark) })

end Reader

/-- Whether the tag at the front of some bytes is that of a record with names of its own. -/
def beginsRecord (bytes : Bytes) : Bool :=
  match header? bytes with
  | some (.record _, _) => true
  | _ => false

mutual

/-- The value that a reader has in front. The first argument bounds the number of values read one
within or behind the other. -/
def value? : Nat → Reader → Option (Packed × Reader)
  | 0, _ => none
  | fuel + 1, reader =>
    match header? reader.rest with
    | none => none
    | some (.whole value, rest) => some (value, { reader with rest })
    | some (.text length, rest) =>
      (split? length rest).map fun (s, rest) =>
        (text (String.ofList (Text.ofUtf8 s)), { reader with rest })
    | some (.bytes length, rest) =>
      (split? length rest).map fun (data, rest) => (Packed.bytes data, { reader with rest })
    | some (.list length, rest) =>
      (items? fuel length { reader with rest }).map fun (items, reader) => (list items, reader)
    | some (.record length, rest) =>
      (fields? fuel length { reader with rest }).map fun (fields, reader) => (record fields, reader)
    | some (.known n, rest) =>
      match reader.layouts.lookup ((n % 0x40 : Nat) : Int) with
      | some layout => laidOut? fuel (n % 0x40) layout { reader with rest }
      | none => some (number (.ofNat n), { reader with rest })
    | some (.piece, rest) =>
      match reader.bundle with
      | none => some (foreign false, { reader with rest })
      | some _ => do
        let (count, reader) ← value? fuel { reader with rest }
        let bundle ← reader.bundle
        reader.takePiece? bundle count
    | some (.small length, rest) =>
      match rest with
      | 0x72 :: low :: rest =>
        if length = 1 then newLayout? fuel (low.toNat % 0x40) none { reader with rest }
        else match rest with
          | high :: rest => newLayout? fuel (low.toNat % 0x40) (some high.toNat) { reader with rest }
          | [] => none
      | kind :: rest => do
        let (data, rest) ← split? length rest
        extension? fuel kind.toNat data { reader with rest }
      | [] => none
    | some (.extension length, rest) =>
      match rest with
      | kind :: rest => do
        let (data, rest) ← split? length rest
        extension? fuel kind.toNat data { reader with rest }
      | [] => none

def items? : Nat → Nat → Reader → Option (List Packed × Reader)
  | _, 0, reader => some ([], reader)
  | 0, _ + 1, _ => none
  | fuel + 1, length + 1, reader => do
    let (item, reader) ← value? fuel reader
    let (items, reader) ← items? fuel length reader
    return (item :: items, reader)

def fields? : Nat → Nat → Reader → Option (List (String × Packed) × Reader)
  | _, 0, reader => some ([], reader)
  | 0, _ + 1, _ => none
  | fuel + 1, length + 1, reader => do
    let (key, reader) ← value? fuel reader
    let name ← key.fieldName?
    let (value, reader) ← value? fuel reader
    let (fields, reader) ← fields? fuel length reader
    return ((name, value) :: fields, reader)

/-- A record of a layout in front of a reader. A second byte other than zero leads to another
layout. -/
def laidOut? : Nat → Nat → Layout → Reader → Option (Packed × Reader)
  | 0, _, _, _ => none
  | fuel + 1, low, layout, reader =>
    let plain (layout : Layout) (reader : Reader) : Option (Packed × Reader) :=
      (items? fuel layout.names.length reader).map fun (items, reader) =>
        (record (layout.names.zip items), reader)
    if !layout.isWide then plain layout reader
    else match reader.rest with
      | [] => none
      | high :: rest =>
        if high = 0 then plain layout { reader with rest }
        else match reader.layouts.lookup (layoutNumber low high.toNat) with
          | some layout => plain layout { reader with rest }
          | none => none

def newLayout? : Nat → Nat → Option Nat → Reader → Option (Packed × Reader)
  | 0, _, _, _ => none
  | fuel + 1, low, high, reader => do
    let (value, reader) ← value? fuel reader
    let names ← value.layoutNames?
    let layout : Layout := { names, isWide := high = some 0 }
    let n : Int := match high with
      | some high => layoutNumber low high
      | none => low
    laidOut? fuel low layout { reader with layouts := (n, layout) :: reader.layouts }

/-- The value of an extension whose data were read. Some kinds of extension say something about the
value behind them. -/
def extension? : Nat → Nat → Bytes → Reader → Option (Packed × Reader)
  | 0, _, _, _ => none
  | fuel + 1, kind, data, reader =>
    match kind with
    | 0 => some (missing, reader)
    | 0x42 => if data.isEmpty then none else some (wide (signed data.length data.bigEndian), reader)
    | 0x62 => (reader.openBundle? data).bind fun reader => value? fuel reader
    | 0x65 => do
      match ← value? fuel reader with
      | (null, _) => none
      | (missing, _) => none
      | (_, reader) => return (foreign false, reader)
    | 0x69 =>
      if data.length < 4 then none
      else do
        let mark := Bytes.bigEndian (data.drop (data.length - 4))
        let (value, after) ← value? fuel (reader.beginMarked mark)
        let after ← after.endMarked? mark (beginsRecord reader.rest) value
        return (value, after)
    | 0x70 =>
      if 4 ≤ data.length then reader.repeat? (Bytes.bigEndian (data.drop (data.length - 4)))
      else none
    | 0x73 => do
      let (value, reader) ← value? fuel reader
      if value.hasItems then some (foreign true, reader) else none
    | 0x74 => (array? data).map fun value => (value, reader)
    | 0x78 => do
      match ← value? fuel reader with
      | (null, _) => none
      | (missing, _) => none
      | (value, reader) => if value.isExpression then return (foreign false, reader) else none
    | 0xFF => some (foreign false, reader)
    | _ => none

end

/-- The value that some bytes are; none of them may be left over, apart from those of a bundle.
Every value takes a byte and at most three steps to read, so four times the number of bytes is
enough. -/
def ofBytes? (bytes : Bytes) : Option Packed :=
  match value? (4 * bytes.length + 4) { rest := bytes } with
  | some (value, reader) =>
    let rest := match reader.bundle with
      | some bundle => bundle.behind
      | none => reader.rest
    if rest.isEmpty then some value else none
  | none => none

end DomainRules.Packed
