import DomainRules.Number.Basic
import DomainRules.Regex.Basic
import DomainRules.Text.Identifier
import DomainRules.Text.Units
/-!
The strict grammar of regular expressions without flags. A pattern is cut into tokens, and the
tokens are assembled into a tree with a stack of open parentheses. Nothing is read leniently: a
bracket or brace that stands alone, an escaped letter without a meaning, a quantifier after an
assertion and a reference to a group that does not exist all make the pattern invalid.
-/
namespace DomainRules.Regex

open Text

inductive Opening where
  | group (kind : GroupKind)
  | look (behind negated : Bool)
  deriving DecidableEq, Repr

/-- A token. An atom can be quantified and an edge cannot. -/
inductive Token where
  | atom (r : Regex)
  | edge (r : Regex)
  | quantifier (times : Repetition) (isLazy : Bool)
  | bar
  | opening (kind : Opening)
  | closing
  deriving DecidableEq, Repr

def digitValue? (u : UInt16) : Option Nat :=
  if isAsciiDigit u.toNat then some (u.toNat - 0x30) else none

def hexValue? (u : UInt16) : Option Nat :=
  let n := u.toNat
  if isAsciiDigit n then some (n - 0x30)
  else if 0x41 ≤ n && n ≤ 0x46 then some (n - 0x37)
  else if 0x61 ≤ n && n ≤ 0x66 then some (n - 0x57)
  else none

def takeDigits : List UInt16 → List Nat × List UInt16
  | [] => ([], [])
  | u :: rest => match digitValue? u with
    | some d => let (ds, after) := takeDigits rest; (d :: ds, after)
    | none => ([], u :: rest)

def takeHexDigits : List UInt16 → List Nat × List UInt16
  | [] => ([], [])
  | u :: rest => match hexValue? u with
    | some d => let (ds, after) := takeHexDigits rest; (d :: ds, after)
    | none => ([], u :: rest)

def hexNumber (digits : List Nat) : Nat := digits.foldl (fun value d => 16 * value + d) 0

def readHex2 : List UInt16 → Option (UInt16 × List UInt16)
  | a :: b :: rest => do
    let ds ← [a, b].mapM hexValue?
    some ((hexNumber ds).toUInt16, rest)
  | _ => none

def readHex4 : List UInt16 → Option (UInt16 × List UInt16)
  | a :: b :: c :: d :: rest => do
    let ds ← [a, b, c, d].mapM hexValue?
    some ((hexNumber ds).toUInt16, rest)
  | _ => none

/-- The code point of a `\u` escape inside a group name, read behind the `u`: a pair of
four-digit escapes, a single one, or digits in braces up to U+10FFFF. -/
def readNameEscape (s : List UInt16) : Option (Nat × List UInt16) :=
  match readHex4 s with
  | some (lead, rest) =>
    match rest with
    | slash :: letter :: after =>
      if isLead lead && sign slash = '\\' && sign letter = 'u' then
        match readHex4 after with
        | some (trail, after) =>
          if isTrail trail then some (pairCode lead trail, after) else some (lead.toNat, rest)
        | none => some (lead.toNat, rest)
      else some (lead.toNat, rest)
    | _ => some (lead.toNat, rest)
  | none =>
    match s with
    | brace :: inside =>
      if sign brace = '\x7b' then
        match takeHexDigits inside with
        | ([], _) => none
        | (digits, close :: rest) =>
          if sign close = '\x7d' && hexNumber digits ≤ 0x10FFFF then
            some (hexNumber digits, rest)
          else none
        | (_, []) => none
      else none
    | [] => none

/-- One code point of a group name: an escape, a surrogate pair, or a unit. -/
def readNameCode : List UInt16 → Option (Nat × List UInt16)
  | [] => none
  | u :: rest =>
    if sign u = '\\' then
      match rest with
      | letter :: after => if sign letter = 'u' then readNameEscape after else none
      | [] => none
    else match rest with
      | v :: after => if isLead u && isTrail v then some (pairCode u v, after) else some (u.toNat, rest)
      | [] => some (u.toNat, rest)

def isNameStart (n : Nat) : Bool := isIdStart n || n == 0x24 || n == 0x5F

/-- A code point with which a group name may go on; the two joiners are allowed here. -/
def isNamePart (n : Nat) : Bool := isIdContinue n || n == 0x24 || n == 0x200C || n == 0x200D

def readNameRest : Nat → List UInt16 → Option (GroupName × List UInt16)
  | 0, _ => none
  | fuel + 1, s =>
    match s with
    | [] => none
    | u :: rest =>
      if sign u = '>' then some ([], rest)
      else do
        let (code, after) ← readNameCode s
        if isNamePart code then
          let (name, after) ← readNameRest fuel after
          some (code :: name, after)
        else none

def readName (s : List UInt16) : Option (GroupName × List UInt16) := do
  let (code, after) ← readNameCode s
  if isNameStart code then
    let (name, after) ← readNameRest (s.length + 1) after
    some (code :: name, after)
  else none

/-- The characters that a letter escape or a digit escape stands for, with the rest. Any other
escaped unit means itself unless it could go on an identifier. -/
def readCharacterEscape : List UInt16 → Option (UInt16 × List UInt16)
  | [] => none
  | u :: rest => match sign u with
    | 't' => some (0x09, rest)
    | 'n' => some (0x0A, rest)
    | 'v' => some (0x0B, rest)
    | 'f' => some (0x0C, rest)
    | 'r' => some (0x0D, rest)
    | 'c' => match rest with
      | letter :: after =>
        if isAsciiLetter letter.toNat then some (letter % 0x20, after) else none
      | [] => none
    | '0' => match rest with
      | next :: _ => if isAsciiDigit next.toNat then none else some (0, rest)
      | [] => some (0, rest)
    | 'x' => readHex2 rest
    | 'u' => readHex4 rest
    | _ => if isIdContinue u.toNat then none else some (u, rest)

def escapeClass? (u : UInt16) : Option (EscapeClass × Bool) :=
  match sign u with
  | 'd' => some (.digit, false)
  | 'D' => some (.digit, true)
  | 's' => some (.space, false)
  | 'S' => some (.space, true)
  | 'w' => some (.word, false)
  | 'W' => some (.word, true)
  | _ => none

def readClassAtom : List UInt16 → Option (ClassMember × List UInt16)
  | [] => none
  | u :: rest =>
    if sign u = '\\' then
      match rest with
      | [] => none
      | v :: after =>
        if sign v = 'b' then some (.unit 0x08, after)
        else match escapeClass? v with
          | some (kind, negated) => some (.escape kind negated, after)
          | none => (readCharacterEscape rest).map fun (value, after) => (.unit value, after)
    else some (.unit u, rest)

/-- The members of a class up to its closing bracket. A dash between two units makes a range,
which must not be out of order; a dash before the bracket is itself. -/
def readClassMembers : Nat → List UInt16 → Option (List ClassMember × List UInt16)
  | 0, _ => none
  | fuel + 1, s =>
    match s with
    | [] => none
    | u :: rest =>
      if sign u = ']' then some ([], rest)
      else do
        let (member, after) ← readClassAtom s
        match after with
        | dash :: behind =>
          if sign dash = '-' then
            match behind with
            | [] => none
            | next :: _ =>
              if sign next = ']' then
                let (members, after) ← readClassMembers fuel behind
                some (member :: .unit dash :: members, after)
              else
                let (last, after) ← readClassAtom behind
                match member, last with
                | .unit low, .unit high =>
                  if low ≤ high then
                    let (members, after) ← readClassMembers fuel after
                    some (.range low high :: members, after)
                  else none
                | _, _ => none
          else
            let (members, after) ← readClassMembers fuel after
            some (member :: members, after)
        | [] => none

def readClass (s : List UInt16) : Option (Regex × List UInt16) :=
  match s with
  | caret :: rest =>
    if sign caret = '^' then
      (readClassMembers (rest.length + 1) rest).map fun (members, after) => (oneOf true members, after)
    else
      (readClassMembers (s.length + 1) s).map fun (members, after) => (oneOf false members, after)
  | [] => none

def takeModifiers : List UInt16 → List Char × List UInt16
  | [] => ([], [])
  | u :: rest =>
    if sign u = 'i' || sign u = 'm' || sign u = 's' then
      let (letters, after) := takeModifiers rest
      (sign u :: letters, after)
    else ([], u :: rest)

def distinctLetters : List Char → Bool
  | [] => true
  | c :: rest => !rest.contains c && distinctLetters rest

/-- The modifiers of a group up to its colon: letters to switch on, then perhaps a dash and
letters to switch off. No letter occurs twice, and a dash needs a letter somewhere. -/
def readModifiers (s : List UInt16) : Option (GroupKind × List UInt16) :=
  let (on, after) := takeModifiers s
  match after with
  | [] => none
  | u :: rest =>
    if sign u = ':' then
      if on.isEmpty then some (.plain, rest)
      else if distinctLetters on then some (.modified on [], rest) else none
    else if sign u = '-' then
      let (off, after) := takeModifiers rest
      match after with
      | colon :: rest =>
        if sign colon = ':' && !(on.isEmpty && off.isEmpty) && distinctLetters (on ++ off) then
          some (.modified on off, rest)
        else none
      | [] => none
    else none

def readOpening (s : List UInt16) : Option (Opening × List UInt16) :=
  match s with
  | question :: rest =>
    if sign question = '?' then
      match rest with
      | u :: after => match sign u with
        | '=' => some (.look false false, after)
        | '!' => some (.look false true, after)
        | '<' => match after with
          | v :: behind => match sign v with
            | '=' => some (.look true false, behind)
            | '!' => some (.look true true, behind)
            | _ => (readName after).map fun (name, rest) => (.group (.capture (some name)), rest)
          | [] => none
        | _ => (readModifiers rest).map fun (kind, rest) => (.group kind, rest)
      | [] => none
    else some (.group (.capture none), s)
  | [] => some (.group (.capture none), s)

/-- The bounds of a counted repetition up to the closing brace. The bounds are compared by the
values that their digits accumulate, and must not be out of order. -/
def readBounds (s : List UInt16) : Option (Repetition × List UInt16) :=
  match takeDigits s with
  | ([], _) => none
  | (digits, after) =>
    let least := Number.accumulateDigits digits
    match after with
    | u :: rest =>
      if sign u = '\x7d' then some (.counted least (some least), rest)
      else if sign u = ',' then
        match takeDigits rest with
        | (upper, close :: after) =>
          if sign close = '\x7d' then
            if upper.isEmpty then some (.counted least none, after)
            else
              let most := Number.accumulateDigits upper
              if least ≤ most then some (.counted least (some most), after) else none
          else none
        | (_, []) => none
      else none
    | [] => none

/-- The question mark that makes a quantifier lazy, if it stands here. -/
def withLaziness (times : Repetition) (s : List UInt16) : Token × List UInt16 :=
  match s with
  | u :: rest => if sign u = '?' then (.quantifier times true, rest) else (.quantifier times false, s)
  | [] => (.quantifier times false, s)

def readEscape (s : List UInt16) : Option (Token × List UInt16) :=
  match s with
  | [] => none
  | u :: rest =>
    if sign u = 'b' then some (.edge (wordEdge false), rest)
    else if sign u = 'B' then some (.edge (wordEdge true), rest)
    else if sign u = 'k' then
      match rest with
      | v :: after =>
        if sign v = '<' then
          (readName after).map fun (name, rest) => (.atom (backreference (.name name)), rest)
        else none
      | [] => none
    else match escapeClass? u with
      | some (kind, negated) => some (.atom (escape kind negated), rest)
      | none =>
        match digitValue? u with
        | some (d + 1) =>
          let (ds, after) := takeDigits rest
          let number := ((d + 1) :: ds).foldl (fun value digit => 10 * value + digit) 0
          some (.atom (backreference (.number number)), after)
        | _ => (readCharacterEscape s).map fun (value, after) => (.atom (unit value), after)

def Token.read : List UInt16 → Option (Token × List UInt16)
  | [] => none
  | u :: rest => match sign u with
    | '^' => some (.edge start, rest)
    | '$' => some (.edge finish, rest)
    | '.' => some (.atom any, rest)
    | '|' => some (.bar, rest)
    | ')' => some (.closing, rest)
    | '*' => some (withLaziness .star rest)
    | '+' => some (withLaziness .plus rest)
    | '?' => some (withLaziness .optional rest)
    | '\x7b' => (readBounds rest).map fun (times, after) => withLaziness times after
    | '\x7d' => none
    | ']' => none
    | '[' => (readClass rest).map fun (r, after) => (.atom r, after)
    | '(' => (readOpening rest).map fun (kind, after) => (.opening kind, after)
    | '\\' => readEscape rest
    | _ => some (.atom (unit u), rest)

/-- The tokens of a pattern. A token takes at least one unit, so the length is fuel enough. -/
def readTokens : Nat → List UInt16 → Option (List Token)
  | _, [] => some []
  | 0, _ :: _ => none
  | fuel + 1, s => do
    let (token, rest) ← Token.read s
    let tokens ← readTokens fuel rest
    some (token :: tokens)

/-- The part of a pattern between two parentheses, as far as it is read: the finished branches
and the items of the current one, both last first, and whether a quantifier may follow. -/
structure Level where
  branches : List Regex := []
  items : List Regex := []
  repeatable : Bool := false

namespace Level

def push (level : Level) (item : Regex) (repeatable : Bool) : Level :=
  { level with items := item :: level.items, repeatable }

def bar (level : Level) : Level :=
  { branches := sequence level.items.reverse :: level.branches }

def body (level : Level) : Regex :=
  choice (sequence level.items.reverse :: level.branches).reverse

/-- The last item under a quantifier, if it can take one. -/
def quantify (level : Level) (times : Repetition) (isLazy : Bool) : Option Level :=
  match level.repeatable, level.items with
  | true, item :: items =>
    some { level with items := repeated item times isLazy :: items, repeatable := false }
  | _, _ => none

end Level

def Opening.close : Opening → Regex → Regex
  | .group kind, body => Regex.group kind body
  | .look behind negated, body => Regex.look behind negated body

/-- A group can be quantified and an assertion cannot. -/
def Opening.isRepeatable : Opening → Bool
  | .group _ => true
  | .look _ _ => false

/-- The tree of the tokens, given the current level and the open parentheses around it. -/
def assemble : List Token → Level → List (Opening × Level) → Option Regex
  | [], level, [] => some level.body
  | [], _, _ :: _ => none
  | token :: tokens, level, outer => match token with
    | .atom r => assemble tokens (level.push r true) outer
    | .edge r => assemble tokens (level.push r false) outer
    | .quantifier times isLazy => match level.quantify times isLazy with
      | some level => assemble tokens level outer
      | none => none
    | .bar => assemble tokens level.bar outer
    | .opening kind => assemble tokens {} ((kind, level) :: outer)
    | .closing => match outer with
      | (kind, around) :: outer =>
        assemble tokens (around.push (kind.close level.body) kind.isRepeatable) outer
      | [] => none

def ofUnits? (s : List UInt16) : Option Regex := do
  let tokens ← readTokens s.length s
  let r ← assemble tokens {} []
  if r.isScoped then some r else none

/-- The pattern inside a text that may be wrapped in slashes, either of which may be missing. -/
def source (text : List Char) : List Char :=
  let inner := match text with
    | '/' :: rest => rest
    | _ => text
  if inner.getLast? = some '/' then inner.dropLast else inner

def read? (text : List Char) : Option Regex := ofUnits? (units (source text))

end DomainRules.Regex
