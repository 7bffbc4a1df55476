import DomainRules.Deflate.Inflate
import DomainRules.Zip.Directory

namespace DomainRules.Crc32

def polynomial : UInt32 := 0xEDB88320

def shift (c : UInt32) : UInt32 := if c &&& 1 = 1 then (c >>> 1) ^^^ polynomial else c >>> 1

def feed (c : UInt32) (b : UInt8) : UInt32 :=
  shift (shift (shift (shift (shift (shift (shift (shift (c ^^^ b.toUInt32))))))))

def ofBytes (bytes : Bytes) : Nat := (bytes.foldl feed 0xFFFFFFFF ^^^ 0xFFFFFFFF).toNat

end DomainRules.Crc32

namespace DomainRules.Zip

def headerLength : Nat := 30

structure Header where
  flags : Nat
  check : Nat
  start : Nat
  deriving DecidableEq, Repr

def header? (bytes : Bytes) (entry : Entry) : Option Header := do
  let header := bytes.slice entry.offset headerLength
  guard (header.length = headerLength ∧ header.take 4 = [0x50, 0x4B, 3, 4])
  return {
    flags := header.number 6 2
    check := header.number 14 4
    start := entry.offset + headerLength + header.number 26 2 + header.number 28 2 }

def descriptorMark : Nat := 0x08074B50

/-- The check that follows the data, if the record that holds it agrees with the directory. The
record may lack its mark if another record follows it, but none may begin in its place. -/
def describedCheck? (bytes : Bytes) (entry : Entry) (finish : Nat) : Option Nat := do
  let mark ← bytes.number? finish 4
  guard (mark ≠ 0x04034B50 ∧ mark ≠ 0x02014B50)
  let next := bytes.number? (finish + 12) 2
  guard (mark = descriptorMark ∨ next = some 0x4B50)
  let start := if mark = descriptorMark then finish + 4 else finish
  let check ← bytes.number? start 4
  let compressedSize ← bytes.number? (start + 4) 4
  let size ← bytes.number? (start + 8) 4
  guard (compressedSize = entry.compressedSize ∧ size = entry.size ∧ check = entry.check)
  return check

/-- The data of an entry before their length and check are looked at. Decompressed data must not
be longer than the directory says, unless it says nothing. -/
def unpack? (entry : Entry) (packed : Bytes) : Option Bytes :=
  match entry.method with
  | 0 => some packed
  | 8 => (Deflate.inflate? packed).filter fun data => entry.size = 0 || data.length ≤ entry.size
  | _ => none

/-- The data of an entry. An entry without packed data is empty, whatever else is said of it. -/
def data? (bytes : Bytes) (entry : Entry) : Option Bytes := do
  let header ← header? bytes entry
  let packed := bytes.slice header.start entry.compressedSize
  if packed.isEmpty then return []
  guard !entry.isEncrypted
  let data := Bytes.fitTo entry.size (← unpack? entry packed)
  let check ←
    if Entry.hasDescriptor entry.flags || Entry.hasDescriptor header.flags then
      describedCheck? bytes entry (header.start + entry.compressedSize)
    else some header.check
  guard (Crc32.ofBytes data = check)
  return data

end DomainRules.Zip
