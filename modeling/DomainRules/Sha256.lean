import DomainRules.Bytes

namespace DomainRules.Sha256

/-- The eight words that are carried from block to block. -/
structure Chain where
  a : UInt32
  b : UInt32
  c : UInt32
  d : UInt32
  e : UInt32
  f : UInt32
  g : UInt32
  h : UInt32
  deriving DecidableEq, Repr

/-- The first bits of the fractional parts of the square roots of the first eight primes. -/
def initial : Chain :=
  ⟨0x6A09E667, 0xBB67AE85, 0x3C6EF372, 0xA54FF53A, 0x510E527F, 0x9B05688C, 0x1F83D9AB, 0x5BE0CD19⟩

/-- The first bits of the fractional parts of the cube roots of the first sixty-four primes, one
for each round. -/
def roundWords : List UInt32 :=
  [0x428A2F98, 0x71374491, 0xB5C0FBCF, 0xE9B5DBA5, 0x3956C25B, 0x59F111F1, 0x923F82A4, 0xAB1C5ED5,
    0xD807AA98, 0x12835B01, 0x243185BE, 0x550C7DC3, 0x72BE5D74, 0x80DEB1FE, 0x9BDC06A7, 0xC19BF174,
    0xE49B69C1, 0xEFBE4786, 0x0FC19DC6, 0x240CA1CC, 0x2DE92C6F, 0x4A7484AA, 0x5CB0A9DC, 0x76F988DA,
    0x983E5152, 0xA831C66D, 0xB00327C8, 0xBF597FC7, 0xC6E00BF3, 0xD5A79147, 0x06CA6351, 0x14292967,
    0x27B70A85, 0x2E1B2138, 0x4D2C6DFC, 0x53380D13, 0x650A7354, 0x766A0ABB, 0x81C2C92E, 0x92722C85,
    0xA2BFE8A1, 0xA81A664B, 0xC24B8B70, 0xC76C51A3, 0xD192E819, 0xD6990624, 0xF40E3585, 0x106AA070,
    0x19A4C116, 0x1E376C08, 0x2748774C, 0x34B0BCB5, 0x391C0CB3, 0x4ED8AA4A, 0x5B9CCA4F, 0x682E6FF3,
    0x748F82EE, 0x78A5636F, 0x84C87814, 0x8CC70208, 0x90BEFFFA, 0xA4506CEB, 0xBEF9A3F7, 0xC67178F2]

def turn (w : UInt32) (n : UInt32) : UInt32 := (w >>> n) ||| (w <<< (32 - n))

/-- The words of the schedule that follow some others. Each comes from four of the sixteen words
before it, which are given newest first. -/
def scheduleMore : Nat → List UInt32 → List UInt32
  | 0, _ => []
  | n + 1, recent =>
    let before (i : Nat) : UInt32 := (recent[i - 1]?).getD 0
    let x := before 15
    let y := before 2
    let w := before 16 + (turn x 7 ^^^ turn x 18 ^^^ (x >>> 3)) + before 7 +
      (turn y 17 ^^^ turn y 19 ^^^ (y >>> 10))
    w :: scheduleMore n (w :: recent.take 15)

def schedule (words : List UInt32) : List UInt32 := words ++ scheduleMore 48 words.reverse

def round (s : Chain) (w k : UInt32) : Chain :=
  let choice := (s.e &&& s.f) ^^^ ((s.e ^^^ 0xFFFFFFFF) &&& s.g)
  let majority := (s.a &&& s.b) ^^^ (s.a &&& s.c) ^^^ (s.b &&& s.c)
  let first := s.h + (turn s.e 6 ^^^ turn s.e 11 ^^^ turn s.e 25) + choice + k + w
  let second := (turn s.a 2 ^^^ turn s.a 13 ^^^ turn s.a 22) + majority
  ⟨first + second, s.a, s.b, s.c, s.d + first, s.e, s.f, s.g⟩

def compress (s : Chain) (words : List UInt32) : Chain :=
  let t := ((schedule words).zip roundWords).foldl (fun t (w, k) => round t w k) s
  ⟨s.a + t.a, s.b + t.b, s.c + t.c, s.d + t.d, s.e + t.e, s.f + t.f, s.g + t.g, s.h + t.h⟩

/-- The message with a mark, zeros and its length in bits, so that it fills whole blocks. -/
def pad (message : Bytes) : Bytes :=
  let zeros := (119 - message.length % 64) % 64
  message ++ 0x80 :: (List.replicate zeros 0 ++ Bytes.ofNat 8 (8 * message.length))

def block (padded : Bytes) (i : Nat) : List UInt32 :=
  (List.range 16).map fun j => ((padded.slice (64 * i + 4 * j) 4).bigEndian).toUInt32

def digest (message : Bytes) : List UInt32 :=
  let padded := pad message
  let s := (List.range (padded.length / 64)).foldl (fun s i => compress s (block padded i)) initial
  [s.a, s.b, s.c, s.d, s.e, s.f, s.g, s.h]

def hex (message : Bytes) : String :=
  String.ofList ((digest message).flatMap fun w =>
    (List.range 8).map fun i => Nat.digitChar (w.toNat >>> (4 * (7 - i)) % 16))

end DomainRules.Sha256
