import DomainRules.Bytes
import DomainRules.Number.Basic

namespace DomainRules.Zip

inductive Mark where
  /-- The record that ends an archive. -/
  | finish
  /-- The record that points to the wide record. -/
  | locator
  /-- The record that ends an archive with numbers of 64 bits. -/
  | wide
  deriving DecidableEq, Repr

def Mark.ofBytes? (bytes : Bytes) : Option Mark :=
  let front := bytes.take 4
  if front = [0x50, 0x4B, 5, 6] then some .finish
  else if front = [0x50, 0x4B, 6, 7] then some .locator
  else if front = [0x50, 0x4B, 6, 6] then some .wide
  else none

/-- The marks in some bytes with their offsets, the last one first. The first byte has the given
offset. -/
def marksFrom (offset : Nat) : Bytes → List (Nat × Mark) → List (Nat × Mark)
  | [], found => found
  | b :: rest, found =>
    let found := match Mark.ofBytes? (b :: rest) with
      | some mark => (offset, mark) :: found
      | none => found
    marksFrom (offset + 1) rest found

def finishLength : Nat := 22

def wideLength : Nat := 56

def longestComment : Nat := 0xFFFF

/-- The offset and the kind of the record that leads to the directory. The marks are given from
the last one on. Behind a record that ends the archive only the bytes where a locator would stand
are searched; a locator opens the search again, and a wide record ends it. -/
def findRecord (bound : Nat) : Int → Option (Nat × Mark) → List (Nat × Mark) → Option (Nat × Mark)
  | _, found, [] => found
  | least, found, (offset, mark) :: marks =>
    if (offset : Int) < least then found
    else match mark with
      | .finish => findRecord bound (offset - 20) (some (offset, .finish)) marks
      | .locator => findRecord bound bound found marks
      | .wide => some (offset, .wide)

/-- Where the entries of the directory are: how many there are, and the offset of the first. -/
structure Place where
  count : Nat
  offset : Nat
  deriving DecidableEq, Repr

def place? (bytes : Bytes) : Option Place := do
  let last := bytes.length - finishLength
  let bound := last - longestComment
  let marks := (marksFrom 0 bytes []).filter fun (offset, _) => offset + finishLength ≤ bytes.length
  match ← findRecord bound bound none marks with
  | (offset, .finish) =>
    let record := bytes.slice offset finishLength
    return { count := record.number 8 2, offset := record.number 16 4 }
  | (offset, _) =>
    let record := bytes.slice offset (bytes.number (offset + 4) 8 + 12)
    guard (wideLength ≤ record.length)
    return { count := record.number 24 8, offset := record.number 48 8 }

structure Entry where
  name : Bytes
  flags : Nat
  method : Nat
  check : Nat
  compressedSize : Nat
  size : Nat
  /-- Where the entry's own header is. -/
  offset : Nat
  deriving DecidableEq, Repr

namespace Entry

def isEncrypted (entry : Entry) : Bool := entry.flags.testBit 0

/-- Whether the check follows the data of an entry instead of preceding them. -/
def hasDescriptor (flags : Nat) : Bool := flags.testBit 3

/-- A directory ends in a slash or a backslash. -/
def isDirectory (entry : Entry) : Bool :=
  match entry.name.getLast? with
  | some b => b = 0x2F || b = 0x5C
  | none => false

end Entry

/-- The value that says that a field of 32 bits is given elsewhere. -/
def elsewhere : Nat := 0xFFFFFFFF

/-- The parts of an extra field with a mark. Every part takes bytes. -/
def extraParts (mark : Nat) : Nat → Bytes → List Bytes
  | 0, _ => []
  | fuel + 1, extra =>
    if 4 < extra.length then
      let size := extra.number 2 2
      let parts := extraParts mark fuel (extra.drop (4 + size))
      if extra.number 0 2 = mark then extra.slice 4 size :: parts else parts
    else []

/-- A field that may be given elsewhere: the eight bytes of a part that hold it count then, as the
nearest binary64 number, of which the last 32 bits are kept. -/
def widened (value : Nat) (part : Bytes) (offset : Nat) : Nat :=
  if value = elsewhere ∧ offset + 8 ≤ part.length then
    Number.nearestNat (part.number offset 8) % Number.twoTo 32
  else value

def Entry.widen (entry : Entry) (part : Bytes) : Entry :=
  { entry with
    size := widened entry.size part 0
    compressedSize := widened entry.compressedSize part 8
    offset := widened entry.offset part 16 }

def entryLength : Nat := 46

/-- Reads an entry at an offset; the offset of the next one comes with it. -/
def readEntry? (bytes : Bytes) (offset : Nat) : Option (Entry × Nat) := do
  let header := bytes.slice offset entryLength
  guard (header.length = entryLength ∧ header.take 4 = [0x50, 0x4B, 1, 2])
  let nameLength := header.number 28 2
  let extraLength := header.number 30 2
  let extra := bytes.slice (offset + entryLength + nameLength) extraLength
  let entry : Entry := {
    name := bytes.slice (offset + entryLength) nameLength
    flags := header.number 8 2
    method := header.number 10 2
    check := header.number 16 4
    compressedSize := header.number 20 4
    size := header.number 24 4
    offset := header.number 42 4 }
  let wide := (extraParts 1 extra.length extra).foldl Entry.widen entry
  return (wide, offset + entryLength + nameLength + extraLength + header.number 32 2)

def readEntries? (bytes : Bytes) : Nat → Nat → Option (List Entry)
  | 0, _ => some []
  | count + 1, offset => do
    let (entry, next) ← readEntry? bytes offset
    let entries ← readEntries? bytes count next
    return entry :: entries

/-- The entries of the directory. There must be room for as many as the record says. -/
def entries? (bytes : Bytes) : Option (List Entry) := do
  let place ← place? bytes
  guard (place.offset + place.count * entryLength ≤ bytes.length)
  readEntries? bytes place.count place.offset

end DomainRules.Zip
