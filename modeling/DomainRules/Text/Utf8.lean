import DomainRules.Text.Units
/-!
UTF-8. Decoding never fails: the longest beginning of a character that cannot be completed becomes
one replacement character. A byte order mark stays.
-/
namespace DomainRules.Text

def utf8OfChar (c : Char) : List UInt8 :=
  let n := c.toNat
  if n < 0x80 then [n.toUInt8]
  else if n < 0x800 then [(0xC0 + n / 0x40).toUInt8, (0x80 + n % 0x40).toUInt8]
  else if n < 0x10000 then
    [(0xE0 + n / 0x1000).toUInt8, (0x80 + n / 0x40 % 0x40).toUInt8, (0x80 + n % 0x40).toUInt8]
  else
    [(0xF0 + n / 0x40000).toUInt8, (0x80 + n / 0x1000 % 0x40).toUInt8,
      (0x80 + n / 0x40 % 0x40).toUInt8, (0x80 + n % 0x40).toUInt8]

def utf8 (s : List Char) : List UInt8 := s.flatMap utf8OfChar

/-- A character of which some bytes were read: how many are missing, the bits so far, and the
range of the next byte. With none missing, no character was begun. -/
structure Utf8State where
  missing : Nat
  value : Nat
  least : Nat
  most : Nat
  deriving DecidableEq, Repr

namespace Utf8State

def ground : Utf8State := ⟨0, 0, 0x80, 0xBF⟩

/-- The first byte of a character. The range of the second byte rules out spellings that are too
long, surrogates, and values beyond the last code point. -/
def begin (b : UInt8) : List Char × Utf8State :=
  let n := b.toNat
  if n < 0x80 then ([Char.ofNat n], ground)
  else if n < 0xC2 then ([replacement], ground)
  else if n < 0xE0 then ([], ⟨1, n - 0xC0, 0x80, 0xBF⟩)
  else if n = 0xE0 then ([], ⟨2, 0, 0xA0, 0xBF⟩)
  else if n = 0xED then ([], ⟨2, 0xD, 0x80, 0x9F⟩)
  else if n < 0xF0 then ([], ⟨2, n - 0xE0, 0x80, 0xBF⟩)
  else if n = 0xF0 then ([], ⟨3, 0, 0x90, 0xBF⟩)
  else if n < 0xF4 then ([], ⟨3, n - 0xF0, 0x80, 0xBF⟩)
  else if n = 0xF4 then ([], ⟨3, 4, 0x80, 0x8F⟩)
  else ([replacement], ground)

def step (state : Utf8State) (b : UInt8) : List Char × Utf8State :=
  let n := b.toNat
  if state.missing = 0 then begin b
  else if state.least ≤ n ∧ n ≤ state.most then
    let value := 0x40 * state.value + (n - 0x80)
    if state.missing = 1 then ([Char.ofNat value], ground)
    else ([], ⟨state.missing - 1, value, 0x80, 0xBF⟩)
  else
    let (cs, next) := begin b
    (replacement :: cs, next)

def decode (state : Utf8State) : List UInt8 → List Char
  | [] => if state.missing = 0 then [] else [replacement]
  | b :: bytes => (state.step b).1 ++ (state.step b).2.decode bytes

end Utf8State

def ofUtf8 (bytes : List UInt8) : List Char := Utf8State.ground.decode bytes

def ofUtf8? (bytes : List UInt8) : Option (List Char) :=
  let s := ofUtf8 bytes
  if utf8 s = bytes then some s else none

end DomainRules.Text
