import DomainRules.Regex.Flaw
import DomainRules.Regex.Reader
/-!
The loose grammar of regular expressions without flags. Where the strict grammar refuses, this one
takes a sign for itself: a bracket or brace that stands alone, an escaped letter without a meaning,
a decimal escape beyond the number of groups. What remains wrong is a flaw, and of several flaws
the leftmost counts.
-/
namespace DomainRules.Regex

open Text

/-- What has to be known of a whole pattern before its escapes can be read: how many groups
capture, and whether one of them has a name. -/
structure Census where
  groups : Nat := 0
  isNamed : Bool := false
  deriving DecidableEq, Repr

namespace Census

def opened (census : Census) (behind : List UInt16) : Census :=
  match behind.take 3 |>.map sign with
  | '?' :: '<' :: '=' :: _ => census
  | '?' :: '<' :: '!' :: _ => census
  | '?' :: '<' :: _ => { groups := census.groups + 1, isNamed := true }
  | '?' :: _ => census
  | _ => { census with groups := census.groups + 1 }

/-- Counts on, given whether the next unit is escaped and whether it stands inside a class. -/
def ofUnits (isEscaped isInside : Bool) (census : Census) : List UInt16 → Census
  | [] => census
  | u :: rest =>
    if isEscaped then ofUnits false isInside census rest
    else match sign u with
      | '\\' => ofUnits true isInside census rest
      | '[' => ofUnits false true census rest
      | ']' => ofUnits false false census rest
      | '(' => ofUnits false isInside (if isInside then census else census.opened rest) rest
      | _ => ofUnits false isInside census rest

end Census

namespace Loose

def readNameCode (s : List UInt16) : Except Flaw (Nat × List UInt16) :=
  match Regex.readNameCode s with
  | some (code, rest) => .ok (code, rest)
  | none => .error (match s.take 2 |>.map sign with
    | ['\\', 'u'] => .invalidUnicodeEscape
    | _ => .invalidGroupName)

def readNameRest : Nat → List UInt16 → Except Flaw (GroupName × List UInt16)
  | 0, _ => .error .invalidGroupName
  | fuel + 1, s => do
    let (code, rest) ← readNameCode s
    if code = 0x3E then return ([], rest)
    else if isNamePart code then
      let (name, rest) ← readNameRest fuel rest
      return (code :: name, rest)
    else throw .invalidGroupName

def readName (s : List UInt16) : Except Flaw (GroupName × List UInt16) := do
  let (code, rest) ← readNameCode s
  if isNameStart code then
    let (name, rest) ← readNameRest (s.length + 1) rest
    return (code :: name, rest)
  else throw .invalidGroupName

def octalValue? (u : UInt16) : Option Nat := (digitValue? u).filter (· < 8)

/-- Up to three octal digits that stay below 256. -/
def readOctal (s : List UInt16) : UInt16 × List UInt16 :=
  let rec go : Nat → Nat → List UInt16 → Nat × List UInt16
    | fuel + 1, value, u :: rest => match octalValue? u with
      | some digit => if value < 32 then go fuel (8 * value + digit) rest else (value, u :: rest)
      | none => (value, u :: rest)
    | _, value, s => (value, s)
  let (value, rest) := go 3 0 s
  (value.toUInt16, rest)

/-- What stands for a control character behind `\c`: a letter, and inside a class also a digit or
an underscore. -/
def isControlLetter (isInside : Bool) (u : UInt16) : Bool :=
  isAsciiLetter u.toNat || (isInside && (isAsciiDigit u.toNat || sign u = '_'))

/-- The unit that an escape stands for, read behind the backslash. What has no meaning stands for
itself; a `\c` without its letter is a backslash before a `c`. -/
def readCharacterEscape (isInside : Bool) (s : List UInt16) : UInt16 × List UInt16 :=
  match s with
  | [] => (0x5C, [])
  | u :: rest => match sign u with
    | 't' => (0x09, rest)
    | 'n' => (0x0A, rest)
    | 'v' => (0x0B, rest)
    | 'f' => (0x0C, rest)
    | 'r' => (0x0D, rest)
    | 'c' => match rest with
      | letter :: after =>
        if isControlLetter isInside letter then (letter % 0x20, after)
        else (0x5C, s)
      | [] => (0x5C, s)
    | 'x' => (readHex2 rest).getD (u, rest)
    | 'u' => (readHex4 rest).getD (u, rest)
    | _ => if (octalValue? u).isSome then readOctal s else (u, rest)

def readClassAtom (census : Census) : List UInt16 → Except Flaw (ClassMember × List UInt16)
  | [] => .error .unterminatedClass
  | u :: rest =>
    if sign u = '\\' then
      match rest with
      | [] => .error .trailingBackslash
      | v :: after =>
        if sign v = 'b' then .ok (.unit 0x08, after)
        else if sign v = 'k' && census.isNamed then .error .invalidEscape
        else match escapeClass? v with
          | some (kind, negated) => .ok (.escape kind negated, after)
          | none =>
            let (value, after) := readCharacterEscape true rest
            .ok (.unit value, after)
    else .ok (.unit u, rest)

/-- The members of a class up to its closing bracket. A dash between two units makes a range,
which must not be out of order; any other dash is itself. -/
def readClassMembers (census : Census) :
    Nat → List UInt16 → Except Flaw (List ClassMember × List UInt16)
  | 0, _ => .error .unterminatedClass
  | fuel + 1, s => match s with
    | [] => .error .unterminatedClass
    | u :: rest =>
      if sign u = ']' then .ok ([], rest)
      else do
        let (member, after) ← readClassAtom census s
        match after with
        | dash :: behind =>
          if sign dash = '-' then
            match behind with
            | [] => throw .unterminatedClass
            | next :: _ =>
              if sign next = ']' then
                let (members, after) ← readClassMembers census fuel behind
                return (member :: .unit dash :: members, after)
              else
                let (last, after) ← readClassAtom census behind
                match member, last with
                | .unit low, .unit high =>
                  if low ≤ high then
                    let (members, after) ← readClassMembers census fuel after
                    return (.range low high :: members, after)
                  else throw .disorderedRange
                | _, _ =>
                  let (members, after) ← readClassMembers census fuel after
                  return (member :: .unit dash :: last :: members, after)
          else
            let (members, after) ← readClassMembers census fuel after
            return (member :: members, after)
        | [] => throw .unterminatedClass

def readClass (census : Census) (s : List UInt16) : Except Flaw (Token × List UInt16) := do
  let isNegated := s.head?.map sign == some '^'
  let inner := if isNegated then s.drop 1 else s
  let (members, rest) ← readClassMembers census (inner.length + 1) inner
  return (.atom (oneOf isNegated members), rest)

def readOpening (s : List UInt16) : Except Flaw (Token × List UInt16) :=
  match s.take 3 |>.map sign with
  | '?' :: ':' :: _ => .ok (.opening (.group .plain), s.drop 2)
  | '?' :: '=' :: _ => .ok (.opening (.look false false), s.drop 2)
  | '?' :: '!' :: _ => .ok (.opening (.look false true), s.drop 2)
  | '?' :: '<' :: '=' :: _ => .ok (.opening (.look true false), s.drop 3)
  | '?' :: '<' :: '!' :: _ => .ok (.opening (.look true true), s.drop 3)
  | '?' :: '<' :: _ => do
    let (name, rest) ← readName (s.drop 2)
    return (.opening (.group (.capture (some name))), rest)
  | '?' :: _ => .error .invalidGroup
  | _ => .ok (.opening (.group (.capture none)), s)

/-- The greatest bound of a repetition; a greater one counts as this one. -/
def greatestBound : Nat := 2147483647

def bound (digits : List Nat) : Nat :=
  min greatestBound (digits.foldl (fun value digit => 10 * value + digit) 0)

/-- The bounds of a counted repetition up to the closing brace; `none` where a brace is only
itself. -/
def readBounds (s : List UInt16) : Option (Repetition × List UInt16) :=
  match takeDigits s with
  | ([], _) => none
  | (least, close :: after) =>
    if sign close = '\x7d' then some (.counted (bound least) (some (bound least)), after)
    else if sign close = ',' then
      match takeDigits after with
      | (most, close :: after) =>
        if sign close = '\x7d' then
          some (.counted (bound least) (if most.isEmpty then none else some (bound most)), after)
        else none
      | (_, []) => none
    else none
  | (_, []) => none

/-- A reference by a number that some group has, read at its first digit. -/
def readNumberReference (census : Census) (s : List UInt16) : Option (Token × List UInt16) :=
  let (digits, after) := takeDigits s
  let number := digits.foldl (fun value digit => 10 * value + digit) 0
  if digits.head? ≠ some 0 && 0 < number && number ≤ census.groups then
    some (.atom (backreference (.number number)), after)
  else none

def readEscape (census : Census) (s : List UInt16) : Except Flaw (Token × List UInt16) :=
  match s with
  | [] => .error .trailingBackslash
  | u :: rest =>
    if sign u = 'b' then .ok (.edge (wordEdge false), rest)
    else if sign u = 'B' then .ok (.edge (wordEdge true), rest)
    else if sign u = 'k' && census.isNamed then
      match rest with
      | v :: after =>
        if sign v = '<' then do
          let (name, rest) ← readName after
          return (.atom (backreference (.name name)), rest)
        else .error .invalidReference
      | [] => .error .invalidReference
    else match escapeClass? u with
      | some (kind, negated) => .ok (.atom (escape kind negated), rest)
      | none => match readNumberReference census s with
        | some (token, after) => .ok (token, after)
        | none =>
          let (value, after) := readCharacterEscape false s
          .ok (.atom (unit value), after)

def readToken (census : Census) (u : UInt16) (rest : List UInt16) :
    Except Flaw (Token × List UInt16) :=
  match sign u with
  | '^' => .ok (.edge start, rest)
  | '$' => .ok (.edge finish, rest)
  | '.' => .ok (.atom any, rest)
  | '|' => .ok (.bar, rest)
  | ')' => .ok (.closing, rest)
  | '*' => .ok (withLaziness .star rest)
  | '+' => .ok (withLaziness .plus rest)
  | '?' => .ok (withLaziness .optional rest)
  | '\x7b' => .ok (match readBounds rest with
    | some (times, after) => withLaziness times after
    | none => (.atom (unit u), rest))
  | '[' => readClass census rest
  | '(' => readOpening rest
  | '\\' => readEscape census rest
  | _ => .ok (.atom (unit u), rest)

def isOrdered : Repetition → Bool
  | .counted least (some most) => least ≤ most
  | _ => true

/-- The level with its last item repeated. A lookahead can be repeated and a lookbehind cannot. -/
def quantify (level : Level) (times : Repetition) (isLazy : Bool) : Except Flaw Level :=
  match level.repeatable, level.items with
  | true, item :: items =>
    if !isOrdered times then .error .disorderedBounds
    else match item with
      | look true _ _ => .error .invalidQuantifier
      | _ => .ok { level with items := repeated item times isLazy :: items, repeatable := false }
  | _, _ => .error .nothingToRepeat

/-- A pattern as far as it is read: the current level, the open parentheses around it, and the
names of the groups that are closed. -/
structure Progress where
  level : Level := {}
  outer : List (Opening × Level) := []
  names : List GroupName := []

namespace Progress

/-- A parenthesis closes. A name is taken when its group closes. -/
def close (progress : Progress) : Except Flaw Progress :=
  match progress.outer with
  | [] => .error .unmatchedParenthesis
  | (kind, around) :: outer =>
    let level := around.push (kind.close progress.level.body) true
    match kind with
    | .group (.capture (some name)) =>
      if progress.names.contains name then .error .duplicateGroupName
      else .ok { level, outer, names := name :: progress.names }
    | _ => .ok { level, outer, names := progress.names }

def add (progress : Progress) : Token → Except Flaw Progress
  | .atom r => .ok { progress with level := progress.level.push r true }
  | .edge r => .ok { progress with level := progress.level.push r false }
  | .quantifier times isLazy =>
    (quantify progress.level times isLazy).map fun level => { progress with level }
  | .bar => .ok { progress with level := progress.level.bar }
  | .opening kind =>
    .ok { progress with
      level := {}
      outer := (kind, progress.level) :: progress.outer }
  | .closing => progress.close

def finish (census : Census) (progress : Progress) : Except Flaw Regex :=
  if !progress.outer.isEmpty then .error .unterminatedGroup
  else
    let r := progress.level.body
    if r.referencesExist census.groups r.groupNames then .ok r else .error .unknownReference

/-- Reads on to the end. A token takes at least one unit, so the length is fuel enough. -/
def read (census : Census) (progress : Progress) : Nat → List UInt16 → Except Flaw Regex
  | fuel + 1, u :: rest => do
    let (token, rest) ← readToken census u rest
    let progress ← progress.add token
    progress.read census fuel rest
  | _, _ => progress.finish census

end Progress

end Loose

/-- The regular expression that units spell in the loose grammar. -/
def ofLooseUnits (s : List UInt16) : Except Flaw Regex :=
  let census := Census.ofUnits false false {} s
  Loose.Progress.read census {} s.length s

end DomainRules.Regex
