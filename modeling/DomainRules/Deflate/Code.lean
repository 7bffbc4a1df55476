/-!
Canonical prefix codes. A code is given by the length of each symbol's code word; words of one
length are consecutive in the order of their symbols, and longer words follow shorter ones.
-/
namespace DomainRules.Deflate

/-- A prefix code: how many words there are of each length from one on, and the symbols in the
order of their words. -/
structure Code where
  counts : List Nat
  symbols : List Nat
  deriving DecidableEq, Repr

def longestWord : Nat := 15

namespace Code

/-- The code of the symbols with the given lengths of words; a symbol of length zero has none. -/
def ofLengths (lengths : List Nat) : Code :=
  let wordLengths := (List.range longestWord).map (· + 1)
  let symbolsOf (length : Nat) : List Nat :=
    (lengths.zipIdx.filter (·.1 = length)).map (·.2)
  { counts := wordLengths.map fun length => (symbolsOf length).length
    symbols := wordLengths.flatMap symbolsOf }

/-- How much of the space of words is unused, in words of the longest length; nothing if the words
are too many. -/
def unused? (code : Code) : Option Nat :=
  code.counts.foldl (fun left? count => do
    let left ← left?
    if 2 * left < count then none else some (2 * left - count)) (some 1)

def isComplete (code : Code) : Bool := code.unused? = some 0

def isTiny (code : Code) : Bool := (code.counts.drop 1).all (· = 0)

/-- All words are used, or there is at most one word and it is a single bit. -/
def isUsable (code : Code) : Bool :=
  match code.unused? with
  | none => false
  | some left => left = 0 || code.isTiny

/-- Reads a word, given the part of it that was read and the first word of the next length. -/
def readFrom (word first : Nat) : List Nat → List Nat → List Bool → Option (Nat × List Bool)
  | count :: counts, symbols, bit :: bits =>
    let word := 2 * word + bit.toNat
    if word < first + count then (symbols[word - first]?).map fun symbol => (symbol, bits)
    else readFrom word (2 * (first + count)) counts (symbols.drop count) bits
  | _, _, _ => none

def read? (code : Code) (bits : List Bool) : Option (Nat × List Bool) :=
  readFrom 0 0 code.counts code.symbols bits

end Code

end DomainRules.Deflate
