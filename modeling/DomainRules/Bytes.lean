namespace DomainRules

abbrev Bytes := List UInt8

namespace Bytes

/-- The piece of a length that begins at an offset; it is shorter where the bytes end. -/
def slice (bytes : Bytes) (offset length : Nat) : Bytes := (bytes.drop offset).take length

/-- The number that bytes spell, the least significant first. -/
def littleEndian : Bytes → Nat
  | [] => 0
  | b :: bytes => b.toNat + 256 * littleEndian bytes

/-- The number that bytes spell, the most significant first. -/
def bigEndian (bytes : Bytes) : Nat := bytes.foldl (fun value b => 256 * value + b.toNat) 0

/-- The bytes of a number, the most significant first. -/
def ofNat (width n : Nat) : Bytes :=
  (List.range width).map fun i => (n >>> (8 * (width - 1 - i))).toUInt8

/-- The number of a width at an offset, the least significant byte first, if all of it is there. -/
def number? (bytes : Bytes) (offset width : Nat) : Option Nat :=
  let piece := bytes.slice offset width
  if piece.length = width then some piece.littleEndian else none

/-- The number of a width at an offset within a piece that is long enough. -/
def number (bytes : Bytes) (offset width : Nat) : Nat := (bytes.slice offset width).littleEndian

/-- The bytes cut or filled with zeros to a length. -/
def fitTo (length : Nat) (bytes : Bytes) : Bytes :=
  bytes.take length ++ List.replicate (length - bytes.length) 0

end Bytes

end DomainRules
