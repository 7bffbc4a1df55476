import DomainRules.Failure
import DomainRules.Regex.Loose
import DomainRules.Regex.Match
import DomainRules.Text.Percent
import DomainRules.Value
/-!
Patterns of paths. Most are built from segments; one that is given as text may hold parameters,
stars and parts of a regular expression, and spells a regular expression as a whole. Names match in
any case, one slash at the end of a path is ignored, and what a pattern captures is unescaped.
-/
namespace DomainRules.Http

open Text

inductive Segment where
  | fixed (name : List Char)
  | parameter
  deriving DecidableEq, Repr

inductive Pattern where
  | segments (pattern : List Segment)
  /-- Every path, which is captured as a whole. -/
  | everything
  | expression (r : Regex)
  deriving DecidableEq, Repr

/-- The parameters of a path that matches the segments, as they stand in the path. -/
def parameters? : List Segment → List (List Char) → Option (List (List Char))
  | [], [] => some []
  | [], [[]] => some []
  | .fixed name :: segments, piece :: pieces =>
    if name.map Char.toLower = piece.map Char.toLower then parameters? segments pieces else none
  | .parameter :: segments, piece :: pieces =>
    if piece.isEmpty then none else (parameters? segments pieces).map (piece :: ·)
  | _, _ => none

/-- The pieces of a path between its slashes, if it begins with one. The empty path counts as a
single slash. -/
def piecesOf? (path : List Char) : Option (List (List Char)) :=
  match splitOn '/' path with
  | [] :: pieces => some pieces
  | _ => none

/-- A parameter in the text of a pattern: what stands before its colon, the expression in
parentheses behind its name, and the marks that end it. -/
structure Placeholder where
  hasSlash : Bool
  hasDot : Bool
  capture : Option (List UInt16)
  hasStar : Bool
  isOptional : Bool
  deriving DecidableEq, Repr

inductive PatternPart where
  | plain (u : UInt16)
  | escaped (u : UInt16)
  | dot
  | star
  /-- A slash before a parenthesis. -/
  | opening
  | placeholder (placeholder : Placeholder)
  deriving DecidableEq, Repr

namespace PatternPart

/-- The expression in parentheses that begins here, up to the first closing one of its line. -/
def takeCapture : List UInt16 → Option (List UInt16 × List UInt16)
  | [] => none
  | u :: rest =>
    if sign u = ')' then some ([u], rest)
    else if isLineEnd u then none
    else (takeCapture rest).map fun (capture, after) => (u :: capture, after)

def takeMark (mark : Char) (s : List UInt16) : Bool × List UInt16 :=
  match s with
  | u :: rest => if sign u = mark then (true, rest) else (false, s)
  | [] => (false, s)

/-- The parameter that begins here: perhaps a slash and a dot, then a colon and a name. -/
def readPlaceholder? (s : List UInt16) : Option (PatternPart × List UInt16) :=
  let (hasSlash, s) := takeMark '/' s
  let (hasDot, s) := takeMark '.' s
  match takeMark ':' s with
  | (true, named) =>
    let rest := named.dropWhile isWordUnit
    if rest.length = named.length then none
    else
      let (capture, rest) := match takeMark '(' rest with
        | (true, inside) => match takeCapture inside with
          | some (capture, rest) => (some (units ['('] ++ capture), rest)
          | none => (none, rest)
        | (false, _) => (none, rest)
      let (hasStar, rest) := takeMark '*' rest
      let (isOptional, rest) := takeMark '?' rest
      some (.placeholder { hasSlash, hasDot, capture, hasStar, isOptional }, rest)
  | (false, _) => none

/-- The part that begins with the given unit, and what follows it. -/
def read (u : UInt16) (rest : List UInt16) : PatternPart × List UInt16 :=
  match readPlaceholder? (u :: rest) with
  | some (part, after) => (part, after)
  | none => match sign u, rest with
    | '\\', v :: after => if isLineEnd v then (.plain u, rest) else (.escaped v, after)
    | '.', _ => (.dot, rest)
    | '*', _ => (.star, rest)
    | '/', v :: after => if sign v = '(' then (.opening, after) else (.plain u, rest)
    | _, _ => (.plain u, rest)

end PatternPart

/-- The expression that a pattern spells, as far as it is written. -/
structure Spelling where
  written : List UInt16 := []
  /-- How much of the text is read. -/
  offset : Nat := 0
  /-- Where the text begins that is not yet barred. -/
  mark : Nat := 0
  /-- What may not begin inside the next parameter, besides a slash. -/
  barred : List UInt16 := []

namespace Spelling

def ascii (s : String) : List UInt16 := units s.toList

/-- What is barred once the text before a part is. -/
def barredBefore (text : List UInt16) (spelling : Spelling) : List UInt16 :=
  spelling.barred ++ (text.take spelling.offset).drop spelling.mark

/-- The expression in the parentheses of a parameter, where the first star stands for anything;
an escape before it leaves the star alone. -/
def spellCapture : List UInt16 → List UInt16
  | [] => []
  | u :: rest =>
    if sign u = '*' then ascii "(.*)" ++ rest
    else if sign u = '\\' && (rest.head?.map isLineEnd == some false) then u :: rest
    else u :: spellCapture rest

/-- The expression that a parameter spells, given what is barred inside it. -/
def spellPlaceholder (barred : List UInt16) (p : Placeholder) : List UInt16 :=
  let dot := if p.hasDot then ascii "\\." else []
  let slash := if p.hasSlash then ascii "/" else []
  let capture := match p.capture with
    | some capture => spellCapture capture
    | none =>
      if barred.isEmpty then ascii "([^/" ++ dot ++ ascii "]+?)"
      else ascii "((?:(?!/|" ++ barred ++ ascii ").)+?)"
  let tail := if p.hasStar then ascii "((?:[/" ++ dot ++ ascii "].+?)?)" else []
  ascii "(?:" ++ dot ++ slash ++ capture ++ tail ++ ascii ")" ++
    (if p.isOptional then ascii "?" else [])

/-- The spelling after one more part of the text, which takes the given number of units there. -/
def add (text : List UInt16) (spelling : Spelling) (part : PatternPart) (size : Nat) : Spelling :=
  let after := spelling.offset + size
  match part with
  | .plain u => { spelling with written := spelling.written ++ [u], offset := after }
  | .escaped u =>
    let own := ascii "\\" ++ [u]
    { written := spelling.written ++ own
      offset := after
      mark := spelling.mark + 2
      barred := spelling.barred ++ own }
  | .dot =>
    { written := spelling.written ++ ascii "\\."
      offset := after
      mark := spelling.mark + 1
      barred := spelling.barred ++ ascii "\\." }
  | .star =>
    { written := spelling.written ++ ascii "(.*)"
      offset := after
      mark := after
      barred := spelling.barredBefore text }
  | .opening =>
    { written := spelling.written ++ ascii "/(?:"
      offset := after
      mark := after
      barred := spelling.barredBefore text ++ ascii "/" }
  | .placeholder p =>
    let barred := if p.hasSlash || p.hasDot then [] else spelling.barredBefore text
    { written := spelling.written ++ spellPlaceholder barred p
      offset := after
      mark := after
      barred }

/-- Spells the rest of the text. A part takes at least one unit, so the length is fuel enough. -/
def spell (text : List UInt16) : Nat → List UInt16 → Spelling → Spelling
  | fuel + 1, u :: rest, spelling =>
    let (part, after) := PatternPart.read u rest
    spell text fuel after (spelling.add text part (rest.length + 1 - after.length))
  | _, _, spelling => spelling

end Spelling

namespace Pattern

/-- The expression that the text of a pattern spells. It covers the whole path, perhaps with a
slash more. -/
def spelled (text : List UInt16) : List UInt16 :=
  let written := (Spelling.spell text text.length text {}).written
  Spelling.ascii "^" ++ written ++
    Spelling.ascii (if written.getLast?.map sign = some '/' then "?$" else "/?$")

def ofSpelled (spelled : List UInt16) : Except Failure Pattern :=
  match Regex.ofLooseUnits spelled with
  | .ok r => .ok (.expression r)
  | .error flaw => .error (.invalidPattern (String.ofList (ofUnits spelled)) flaw)

def ofText (text : String) : Except Failure Pattern :=
  if text = "*" then .ok .everything else ofSpelled (spelled (units text.toList))

/-- The pattern that several texts spell, each of which has to spell one on its own. -/
def ofTexts (texts : List String) : Except Failure Pattern := do
  let spellings := texts.map fun text => spelled (units text.toList)
  let _ ← spellings.mapM ofSpelled
  ofSpelled (List.intercalate (Spelling.ascii "|") spellings)

/-- The pattern that a value spells, which has to be a text or a list of texts. -/
def ofValue : Value → Except Failure Pattern
  | .text text => ofText text
  | .list items =>
    match items.mapM Value.text? with
    | some texts => ofTexts texts
    | none => .error .invalidPath
  | _ => .error .invalidPath

/-- The pattern of what lies under a path by as many parameters as given. -/
def under (path : String) (parameters : Nat) : Pattern :=
  .segments (((splitOn '/' path.toList).drop 1).map .fixed ++ .replicate parameters .parameter)

/-- What a pattern captures of a path that matches it; an empty capture is left out. -/
def captures? (pattern : Pattern) (path : List Char) : Option (List (List Char)) :=
  match pattern with
  | .segments pattern => (piecesOf? path).bind (parameters? pattern)
  | .everything => some [path]
  | .expression r => (r.search? (units path)).map fun captures =>
    captures.filterMap fun capture? =>
      (capture?.filter fun capture => !capture.isEmpty).map ofUnits

end Pattern

end DomainRules.Http
