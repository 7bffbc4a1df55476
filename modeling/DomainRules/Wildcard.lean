import DomainRules.Regex.Reader
/-!
Wildcards: patterns in which `*` stands for any sequence of code units, `?` for exactly one, and
everything else for itself. A regular expression is rewritten into a wildcard that matches at
least as much; `isDangerous` says when the rewriting would lose too much to be published.
-/
namespace DomainRules

abbrev Wildcard := List UInt16

def starUnit : UInt16 := 0x2A

def questionUnit : UInt16 := 0x3F

def dotUnit : UInt16 := 0x2E

namespace Regex

/-- The wildcard of a regular expression. Literals stay, what matches one unit becomes `?`,
repetition and choice become `*`, and position assertions vanish. -/
def wildcard : Regex → Wildcard
  | empty => []
  | unit u => [u]
  | any => [questionUnit]
  | escape _ _ => [questionUnit]
  | oneOf _ _ => [questionUnit]
  | start => []
  | finish => []
  | wordEdge _ => []
  | look _ _ _ => [questionUnit]
  | backreference _ => [questionUnit]
  | group _ body => body.wildcard
  | repeated _ _ _ => [starUnit]
  | concat first rest => first.wildcard ++ rest.wildcard
  | either _ _ => [starUnit]

/-- Whether the tree holds, at any depth, a construct whose rewriting loses precision: a class, a
choice, a counted repetition, a lookaround or a backreference. -/
def isLossy : Regex → Bool
  | escape _ _ => true
  | oneOf _ _ => true
  | look _ _ _ => true
  | backreference _ => true
  | group _ body => body.isLossy
  | repeated _ (.counted _ _) _ => true
  | repeated body _ _ => body.isLossy
  | concat first rest => first.isLossy || rest.isLossy
  | either _ _ => true
  | _ => false

end Regex

namespace Wildcard

/-- Whether a wildcard matches too much: nothing but wildcard signs and dots, or three or more
single-unit wildcards. The empty one matches only the empty text. -/
def isBroad (w : Wildcard) : Bool :=
  !w.isEmpty &&
    (w.all (fun u => u == starUnit || u == questionUnit || u == dotUnit) ||
      3 ≤ w.count questionUnit)

def isBare (w : Wildcard) : Bool := w.all fun u => u == starUnit || u == questionUnit

/-- The wildcard of a regular expression given as text; empty when the text is invalid. -/
def ofText (regex : List Char) : Wildcard :=
  match Regex.read? regex with
  | some r => r.wildcard
  | none => []

end Wildcard

/-- Whether publishing the wildcard of a regular expression would be unsafe. The tree and the
wildcard are both checked, and an invalid text is unsafe. -/
def isDangerous (regex : List Char) : Bool :=
  match Regex.read? regex with
  | some r => r.isLossy || Wildcard.isBroad r.wildcard
  | none => true

end DomainRules
