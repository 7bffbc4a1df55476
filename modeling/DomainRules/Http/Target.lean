import DomainRules.Text.Blank
import DomainRules.Text.Identifier
import DomainRules.Text.LowerCase
import DomainRules.Text.Percent
import DomainRules.Text.Punycode
/-!
Request targets: the path that one names. Most targets are paths with a query. Others name a scheme
or a host in front, which have to be taken off; some of these name no path, and some cannot be read.
The targets are those of well-formed requests, which hold visible characters of ASCII only.
-/
namespace DomainRules.Http

namespace HostName

/-- Whether a character above ASCII may be spelled in a label: letters, digits and marks may, and
symbols. -/
def isSpelled (c : Char) : Bool :=
  let n := c.toNat
  n < 0x80 || (0xA1 ≤ n && Text.isIdContinue n) || (0x2010 ≤ n && n ≤ 0x2BFF) ||
    (0x1F000 ≤ n && n ≤ 0x1FAFF)

/-- The mark of a label that is spelled in ASCII. -/
def mark : List Char := "xn--".toList

/-- Whether a label can be used: one with the mark spells a text in lower case. -/
def isLabel (label : List Char) : Bool :=
  if mark.isPrefixOf label then
    match Text.Punycode.decode? (label.drop mark.length) with
    | some text =>
      !text.isEmpty && text.all isSpelled && Text.lowerCase text = text
    | none => false
  else true

/-- Whether a name in lower case can be used. Brackets belong around addresses only. -/
def isUsable (name : List Char) : Bool :=
  !name.isEmpty && !name.contains '[' && !name.contains ']' &&
    (Text.splitOn '.' name).all isLabel

end HostName

namespace Target

def isVisible (c : Char) : Bool := 0x21 ≤ c.toNat && c.toNat ≤ 0x7E

/-- Signs that may not stand before the path of a target with a scheme. -/
def isOutsideAuthority (c : Char) : Bool := "\"#<>\\^`\x7b|\x7d".toList.contains c

def hasTwinAts : List Char → Bool
  | '@' :: '@' :: _ => true
  | _ :: rest => hasTwinAts rest
  | [] => false

/-- Whether a target may stand in a request line: a path or a star, or a scheme with two slashes
and an authority. -/
def isWellFormed (target : List Char) : Bool :=
  target.all isVisible && match target with
    | '/' :: _ => true
    | '*' :: _ => true
    | _ =>
      let scheme := target.takeWhile Char.isAlpha
      match target.drop scheme.length with
      | ':' :: '/' :: '/' :: rest =>
        let authority := rest.takeWhile fun c => c ≠ '/' && c ≠ '?'
        !scheme.isEmpty && !authority.any isOutsideAuthority && !hasTwinAts authority
      | _ => false

def endsPath (c : Char) : Bool := c = '?' || c = '#'

def endsHost (c : Char) : Bool := c = '/' || endsPath c

def isOutsideHost (c : Char) : Bool := "\"%';<>\\^`\x7b|\x7d".toList.contains c

/-- A sign that is escaped in a path, or another character. -/
def escapeSign (c : Char) : List Char :=
  if "\"'<>\\^`\x7b|\x7d".toList.contains c then Text.escapeByte c.toNat.toUInt8 else [c]

/-- A target in which backslashes in front of a query or fragment count as slashes. -/
def slashed (target : List Char) : List Char :=
  (target.takeWhile (!endsPath ·)).map (fun c => if c = '\\' then '/' else c) ++
    target.dropWhile (!endsPath ·)

/-- Whether a target is no more than a path and a query: it has no fragment, no at sign in the path,
and one or two slashes at its front. -/
def isSimple (target : List Char) : Bool :=
  let path := target.takeWhile (!endsPath ·)
  !target.contains '#' && !path.contains '@' &&
    match path with
    | '/' :: '/' :: '/' :: _ => false
    | '/' :: _ => true
    | _ => false

def scheme? (target : List Char) : Option (List Char × List Char) :=
  let name := target.takeWhile fun c => c.isAlphanum || ['+', '-', '.'].contains c
  match name, target.drop name.length with
  | _ :: _, ':' :: rest => some (name, rest)
  | _, _ => none

/-- Schemes whose addresses have slashes in front of a host and a path behind it. -/
def isHierarchical (scheme : List Char) : Bool :=
  ["http", "https", "ftp", "gopher", "file", "ws", "wss"].any (·.toList = scheme)

/-- The scheme of programs, whose addresses have no host and are left as they are. -/
def isProgram (scheme : List Char) : Bool := scheme = "javascript".toList

def beginsWithUser : List Char → Bool
  | '/' :: '/' :: rest =>
    let isUser (c : Char) : Bool := c ≠ '@' && c ≠ '/'
    match rest.takeWhile isUser, rest.dropWhile isUser with
    | _ :: _, '@' :: c :: _ => isUser c
    | _, _ => false
  | _ => false

/-- A host without its port. The port is behind the last colon, if there are only digits. -/
def withoutPort (host : List Char) : List Char :=
  match host.reverse.dropWhile Char.isDigit with
  | ':' :: name => name.reverse
  | _ => host

/-- A host with the path, query and fragment behind it. -/
structure Located where
  isNamed : Bool
  rest : List Char

def longestHost : Nat := 255

/-- Takes the name of a host off its front. What follows a colon that begins no port belongs to the
path. -/
def locate? (host rest : List Char) : Option Located :=
  let name := withoutPort host
  if name.head? = some '[' && name.getLast? = some ']' then
    some {
      isNamed := 2 < name.length && name.length ≤ longestHost
      rest := if rest.head? = some '/' then rest else '/' :: rest }
  else
    let known := name.takeWhile (· ≠ ':')
    let behind := name.drop known.length
    let rest := if behind.isEmpty then rest else '/' :: (behind ++ rest)
    if known.isEmpty || longestHost < known.length then some { isNamed := false, rest }
    else if HostName.isUsable (Text.lowerCase known) then some { isNamed := true, rest }
    else none

/-- Takes a user and a host off the front of a target. The user is what precedes the last at
sign. -/
def afterHost? (target : List Char) : Option Located := do
  let authority := target.takeWhile (!endsHost ·)
  let rest := target.dropWhile (!endsHost ·)
  let behind := (authority.reverse.takeWhile (· ≠ '@')).reverse
  let user := (authority.take (authority.length - behind.length)).dropLast
  let _ ← Text.unescape? user
  let host := behind.takeWhile (!isOutsideHost ·)
  locate? host (behind.drop host.length ++ rest)

def located? (target : List Char) : Option (Option (List Char) × Located) :=
  let (scheme, rest) := match scheme? target with
    | some (name, rest) => (some name, rest)
    | none => (none, target)
  let lower := scheme.map Text.lowerCase
  let isPlain := lower.any isProgram
  let hasSlashes := (scheme.isSome || beginsWithUser rest) && "//".toList.isPrefixOf rest
  let hasHost := !isPlain && (hasSlashes || scheme.any (!isHierarchical ·))
  if hasHost then
    (afterHost? (if hasSlashes then rest.drop 2 else rest)).map fun located => (lower, located)
  else some (lower, { isNamed := false, rest })

def carefulPath? (target : List Char) : Option (List Char) := do
  let target := slashed target
  if isSimple target then return target.takeWhile (!endsPath ·)
  let (scheme, located) ← located? target
  let rest := if scheme.any isProgram then located.rest else located.rest.flatMap escapeSign
  match rest.takeWhile (!endsPath ·) with
  | [] => if scheme.any isHierarchical && located.isNamed then some ['/'] else none
  | path => return path

def path? (target : List Char) : Option (List Char) :=
  if target.head? = some '/' && !target.contains '#' then
    some (target.takeWhile (· ≠ '?'))
  else carefulPath? target

end Target

end DomainRules.Http
