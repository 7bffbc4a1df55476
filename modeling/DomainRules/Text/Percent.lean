import DomainRules.Number.Reading
import DomainRules.Text.Utf8

namespace DomainRules.Text

def isHexDigit (c : Char) : Bool := (Number.digitOf? 16 c).isSome

/-- The bytes that a text with escapes stands for. A percent sign without two digits behind it
stands for nothing. -/
def unescapeBytes? : List Char → Option (List UInt8)
  | [] => some []
  | '%' :: a :: b :: rest => do
    let high ← Number.digitOf? 16 a
    let low ← Number.digitOf? 16 b
    let bytes ← unescapeBytes? rest
    return (16 * high + low).toUInt8 :: bytes
  | c :: rest => if c = '%' then none else (unescapeBytes? rest).map (utf8OfChar c ++ ·)

/-- The text that a text with escapes stands for, if the bytes are those of a text. -/
def unescape? (s : List Char) : Option (List Char) := (unescapeBytes? s).bind ofUtf8?

def capitalDigit (n : Nat) : Char := (Nat.digitChar n).toUpper

def escapeByte (b : UInt8) : List Char :=
  ['%', capitalDigit (b.toNat / 16), capitalDigit (b.toNat % 16)]

/-- Whether a character is left as it is when it has a meaning in an address, or none that could
be confused: letters, digits and some signs. -/
def isUnescaped (c : Char) : Bool :=
  c.isAlphanum || ";,/?:@&=+$-_.!~*'()#".toList.contains c

def escapeChar (c : Char) : List Char :=
  if isUnescaped c then [c] else (utf8OfChar c).flatMap escapeByte

/-- Whether a character may stand in an address: any visible one of ASCII apart from quotation
marks, angle and curly brackets, and the grave accent. -/
def isAddressChar (c : Char) : Bool :=
  let n := c.toNat
  n == 0x21 || (0x23 ≤ n && n ≤ 0x3B) || n == 0x3D || (0x3F ≤ n && n ≤ 0x5F) ||
  (0x61 ≤ n && n ≤ 0x7A) || n == 0x7C || n == 0x7E

def beginsWithDigits : List Char → Bool
  | a :: b :: _ => isHexDigit a && isHexDigit b
  | _ => false

/-- Escapes what may not stand in an address, and a percent sign that begins no escape. Escapes that
are there stay. -/
def escapeAddress : List Char → List Char
  | [] => []
  | c :: rest =>
    let isKept := if c = '%' then beginsWithDigits rest else isAddressChar c
    (if isKept then [c] else escapeChar c) ++ escapeAddress rest

end DomainRules.Text
