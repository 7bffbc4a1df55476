import DomainRules.Number.Reading
import DomainRules.Text.Blank
/-!
Which kind of text a client wants. It lists media ranges with qualities; for each kind the most
specific range counts, and the kind with the greatest quality wins.
-/
namespace DomainRules.Http

structure MediaRange where
  /-- The type, or a star for any. -/
  type : List Char
  subtype : List Char
  hasParameters : Bool
  /-- Whether a media type without parameters has those that are asked for. -/
  isSatisfied : Bool
  quality : Number
  position : Nat
  deriving DecidableEq, Repr

/-- How well a range fits a media type. -/
structure Fit where
  specificity : Nat
  quality : Number
  position : Int
  deriving DecidableEq, Repr

namespace MediaRange

/-- The pieces between the separators that stand outside quotes. -/
def splitOutside (separator : Char) : Bool → List Char → List (List Char)
  | _, [] => [[]]
  | quoted, c :: rest =>
    if c = separator && !quoted then [] :: splitOutside separator quoted rest
    else match splitOutside separator (quoted != (c = '"')) rest with
      | [] => [[c]]
      | piece :: pieces => (c :: piece) :: pieces

def unquote (value : List Char) : List Char :=
  if value.head? = some '"' && value.getLast? = some '"' then (value.drop 1).dropLast else value

/-- The name and the value of a parameter; the value may be missing. -/
def parameterOf (piece : List Char) : List Char × Option (List Char) :=
  let key := (piece.takeWhile (· ≠ '=')).map Char.toLower
  match piece.dropWhile (· ≠ '=') with
  | [] => (key, none)
  | _ :: value => (key, some (unquote value))

/-- The parameters in front of the quality, and the quality. -/
def parametersOf : List (List Char) → List (List Char × Option (List Char)) × Number
  | [] => ([], .ofNat 1)
  | piece :: pieces =>
    let (key, value) := parameterOf (Text.trim piece)
    if key = ['q'] then
      ([], match value with
        | some text => .ofBeginning text
        | none => .nan)
    else
      let (parameters, quality) := parametersOf pieces
      ((key, value) :: parameters, quality)

/-- Whether a media type without parameters has a parameter of the given value. -/
def isMet : Option (List Char) → Bool
  | none => true
  | some value => value = [] || value = ['*']

def ofPiece? (piece : List Char) (position : Nat) : Option MediaRange :=
  let text := Text.trim piece
  let type := text.takeWhile fun c => !Text.isBlank c && c ≠ '/' && c ≠ ';'
  match type.isEmpty, text.drop type.length with
  | false, '/' :: behind =>
    let subtype := behind.takeWhile fun c => !Text.isBlank c && c ≠ ';'
    let rest := Text.trimStart (behind.drop subtype.length)
    let pieces? := match rest with
      | [] => some []
      | [';'] => some []
      | ';' :: parameters => some (splitOutside ';' false parameters)
      | _ => none
    if subtype.isEmpty then none
    else pieces?.map fun pieces =>
      let (parameters, quality) := parametersOf pieces
      -- Of parameters with one name the last counts.
      let last := parameters.filter fun (key, value) =>
        parameters.reverse.lookup key = some value
      { type := type.map Char.toLower
        subtype := subtype.map Char.toLower
        hasParameters := !parameters.isEmpty
        isSatisfied := last.all fun (_, value) => isMet value
        quality
        position }
  | _, _ => none

/-- The ranges that a list spells; pieces that spell none are skipped. -/
def ofList (accept : List Char) : List MediaRange :=
  (splitOutside ',' false accept).zipIdx.filterMap fun (piece, position) =>
    ofPiece? piece position

/-- How a range fits a media type without parameters, if it does. -/
def fit? (range : MediaRange) (type subtype : List Char) : Option Fit :=
  let isType := range.type = type
  let isSubtype := range.subtype = subtype
  if (!isType && range.type ≠ ['*']) || (!isSubtype && range.subtype ≠ ['*']) ||
    (range.hasParameters && !range.isSatisfied) then none
  else some {
    specificity := (if isType then 4 else 0) + (if isSubtype then 2 else 0) +
      (if range.hasParameters then 1 else 0)
    quality := range.quality
    position := range.position }

end MediaRange

namespace Fit

def nothing : Fit := ⟨0, .finite 0, -1⟩

/-- Whether the second fit takes the place of the first: it is more specific, or else of greater
quality, or else later. -/
def yields (a b : Fit) : Bool :=
  if a.specificity ≠ b.specificity then a.specificity < b.specificity
  else if a.quality.lt b.quality then true
  else if b.quality.lt a.quality then false
  else a.position < b.position

def best (ranges : List MediaRange) (type subtype : List Char) : Fit :=
  ranges.foldl (fun best range => match range.fit? type subtype with
    | some fit => if best.yields fit then fit else best
    | none => best) nothing

/-- Whether a media type with this fit is wanted at all. -/
def isWanted (fit : Fit) : Bool := (Number.finite 0).lt fit.quality

/-- Whether the second of two wanted kinds is preferred to the first. -/
def prefers (a b : Fit) : Bool :=
  if a.quality.lt b.quality then true
  else if b.quality.lt a.quality then false
  else if a.specificity ≠ b.specificity then a.specificity < b.specificity
  else b.position < a.position

end Fit

/-- The kinds of text that a short page comes in. -/
inductive TextKind where
  | plain
  | html
  deriving DecidableEq, Repr

/-- The kind of text that a client wants, if it wants one of the two. Without a list it gets plain
text, and of two kinds that it likes equally too. -/
def TextKind.wanted? (accept : Option String) : Option TextKind :=
  match accept with
  | none => some .plain
  | some "" => some .plain
  | some list =>
    let ranges := MediaRange.ofList list.toList
    let plain := Fit.best ranges "text".toList "plain".toList
    let html := Fit.best ranges "text".toList "html".toList
    if html.isWanted && (!plain.isWanted || plain.prefers html) then some .html
    else if plain.isWanted then some .plain
    else none

end DomainRules.Http
