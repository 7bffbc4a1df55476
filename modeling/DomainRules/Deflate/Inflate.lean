import DomainRules.Bytes
import DomainRules.Deflate.Code
/-!
Deflate decompression. The data are blocks of bits; a block holds its bytes as they are, or as
literals and repetitions of what came before, coded by a fixed code or by one that the block brings.
What follows the last block is ignored.
-/
namespace DomainRules.Deflate

/-- The bits of a byte, the least significant first. -/
def bitsOfByte (b : UInt8) : List Bool := (List.range 8).map b.toNat.testBit

def bitsOf (bytes : Bytes) : List Bool := bytes.flatMap bitsOfByte

/-- The number that bits spell, the least significant first. -/
def numberOf : List Bool → Nat
  | [] => 0
  | bit :: bits => bit.toNat + 2 * numberOf bits

def readNumber (width : Nat) (bits : List Bool) : Option (Nat × List Bool) :=
  let front := bits.take width
  if front.length = width then some (numberOf front, bits.drop width) else none

def readNumbers (width : Nat) : Nat → List Bool → Option (List Nat × List Bool)
  | 0, bits => some ([], bits)
  | count + 1, bits => do
    let (n, bits) ← readNumber width bits
    let (ns, bits) ← readNumbers width count bits
    return (n :: ns, bits)

/-- Bytes put in front of those before them; the output is kept in reverse. -/
def emit (output front : Bytes) : Bytes := front.reverse ++ output

/-- So many bytes of a window that is read again from its start when it ends. -/
def repeated (window : Bytes) : Nat → Bytes → Bytes
  | 0, _ => []
  | n + 1, b :: rest => b :: repeated window n rest
  | n + 1, [] => match window with
    | [] => []
    | b :: rest => b :: repeated window n rest

/-- The output with a repetition of earlier bytes. The distance must not reach before the start,
and the repetition may overlap itself. -/
def copyBack (output : Bytes) (length distance : Nat) : Option Bytes :=
  let window := (output.take distance).reverse
  if window.length = distance then some (emit output (repeated window length window)) else none

/-- The least length of each length symbol from 257 on, with the number of bits added to it. -/
def lengthBases : List (Nat × Nat) :=
  [(3, 0), (4, 0), (5, 0), (6, 0), (7, 0), (8, 0), (9, 0), (10, 0), (11, 1), (13, 1), (15, 1),
    (17, 1), (19, 2), (23, 2), (27, 2), (31, 2), (35, 3), (43, 3), (51, 3), (59, 3), (67, 4),
    (83, 4), (99, 4), (115, 4), (131, 5), (163, 5), (195, 5), (227, 5), (258, 0)]

/-- The least distance of each distance symbol, with the number of bits added to it. -/
def distanceBases : List (Nat × Nat) :=
  [(1, 0), (2, 0), (3, 0), (4, 0), (5, 1), (7, 1), (9, 2), (13, 2), (17, 3), (25, 3), (33, 4),
    (49, 4), (65, 5), (97, 5), (129, 6), (193, 6), (257, 7), (385, 7), (513, 8), (769, 8),
    (1025, 9), (1537, 9), (2049, 10), (3073, 10), (4097, 11), (6145, 11), (8193, 12),
    (12289, 12), (16385, 13), (24577, 13)]

/-- Reads a value whose symbol names its base. -/
def readBased (bases : List (Nat × Nat)) (symbol : Nat) (bits : List Bool) :
    Option (Nat × List Bool) := do
  let (base, width) ← bases[symbol]?
  let (extra, bits) ← readNumber width bits
  return (base + extra, bits)

def endOfBlock : Nat := 256

/-- Reads the symbols of a block up to its end. Every symbol takes a bit, so the number of bits
bounds the number of symbols. -/
def readSymbols (literals distances : Code) :
    Nat → List Bool → Bytes → Option (Bytes × List Bool)
  | 0, _, _ => none
  | fuel + 1, bits, output => do
    let (symbol, bits) ← literals.read? bits
    if symbol < endOfBlock then readSymbols literals distances fuel bits (symbol.toUInt8 :: output)
    else if symbol = endOfBlock then some (output, bits)
    else
      let (length, bits) ← readBased lengthBases (symbol - 257) bits
      let (distanceSymbol, bits) ← distances.read? bits
      let (distance, bits) ← readBased distanceBases distanceSymbol bits
      let output ← copyBack output length distance
      readSymbols literals distances fuel bits output

def fixedLiterals : Code :=
  .ofLengths (List.replicate 144 8 ++ List.replicate 112 9 ++ List.replicate 24 7 ++
    List.replicate 8 8)

def fixedDistances : Code := .ofLengths (List.replicate 32 5)

/-- The order in which the lengths of the code for lengths are written. -/
def lengthOrder : List Nat := [16, 17, 18, 0, 8, 7, 9, 6, 10, 5, 11, 4, 12, 3, 13, 2, 14, 1, 15]

def lengthCode (written : List Nat) : Code :=
  let named := lengthOrder.zip written
  .ofLengths ((List.range 19).map fun symbol => (named.lookup symbol).getD 0)

/-- Reads so many lengths of words, after those read so far, which are kept in reverse. Every step
adds one length at least. -/
def readLengths (code : Code) (total : Nat) :
    Nat → List Bool → List Nat → Option (List Nat × List Bool)
  | 0, bits, found => if found.length = total then some (found.reverse, bits) else none
  | fuel + 1, bits, found =>
    if found.length = total then some (found.reverse, bits)
    else if total < found.length then none
    else do
      let (symbol, bits) ← code.read? bits
      if symbol < 16 then readLengths code total fuel bits (symbol :: found)
      else if symbol = 16 then
        let last ← found.head?
        let (extra, bits) ← readNumber 2 bits
        readLengths code total fuel bits (List.replicate (3 + extra) last ++ found)
      else if symbol = 17 then
        let (extra, bits) ← readNumber 3 bits
        readLengths code total fuel bits (List.replicate (3 + extra) 0 ++ found)
      else
        let (extra, bits) ← readNumber 7 bits
        readLengths code total fuel bits (List.replicate (11 + extra) 0 ++ found)

def readCodes (bits : List Bool) : Option ((Code × Code) × List Bool) := do
  let (literalExtra, bits) ← readNumber 5 bits
  let (distanceExtra, bits) ← readNumber 5 bits
  let (lengthExtra, bits) ← readNumber 4 bits
  let literalCount := literalExtra + 257
  let distanceCount := distanceExtra + 1
  guard (literalCount ≤ 286 && distanceCount ≤ 30)
  let (written, bits) ← readNumbers 3 (lengthExtra + 4) bits
  let code := lengthCode written
  guard code.isComplete
  let total := literalCount + distanceCount
  let (lengths, bits) ← readLengths code total total bits []
  let literalLengths := lengths.take literalCount
  guard ((literalLengths[endOfBlock]?).getD 0 ≠ 0)
  let literals := Code.ofLengths literalLengths
  let distances := Code.ofLengths (lengths.drop literalCount)
  guard (literals.isUsable && distances.isUsable)
  return ((literals, distances), bits)

/-- Reads a block of bytes as they are. It starts at a byte, and its length is written twice. -/
def readStored (bits : List Bool) (output : Bytes) : Option (Bytes × List Bool) := do
  let bits := bits.drop (bits.length % 8)
  let (length, bits) ← readNumber 16 bits
  let (complement, bits) ← readNumber 16 bits
  guard (length + complement = 0xFFFF)
  let (bytes, bits) ← readNumbers 8 length bits
  return (emit output (bytes.map Nat.toUInt8), bits)

def readBlock (kind : Nat) (bits : List Bool) (output : Bytes) : Option (Bytes × List Bool) :=
  match kind with
  | 0 => readStored bits output
  | 1 => readSymbols fixedLiterals fixedDistances bits.length bits output
  | 2 => do
    let ((literals, distances), bits) ← readCodes bits
    readSymbols literals distances bits.length bits output
  | _ => none

/-- Reads blocks up to the last one. Every block takes bits, so their number bounds the blocks. -/
def readBlocks : Nat → List Bool → Bytes → Option Bytes
  | 0, _, _ => none
  | fuel + 1, bits, output => do
    let (final, bits) ← readNumber 1 bits
    let (kind, bits) ← readNumber 2 bits
    let (output, bits) ← readBlock kind bits output
    if final = 1 then some output.reverse else readBlocks fuel bits output

def inflate? (bytes : Bytes) : Option Bytes :=
  let bits := bitsOf bytes
  readBlocks bits.length bits []

end DomainRules.Deflate
