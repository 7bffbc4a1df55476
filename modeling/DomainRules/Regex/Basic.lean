/-!
Regular expressions over UTF-16 code units, as a syntax tree. A sequence is a chain of `concat`
that ends in `empty`, and a choice is a chain of `either`, so a tree is an ordinary inductive type.
-/
namespace DomainRules

/-- A name of a group, as code points. -/
abbrev GroupName := List Nat

inductive EscapeClass where
  | digit
  | space
  | word
  deriving DecidableEq, Repr

inductive ClassMember where
  | unit (u : UInt16)
  | range (first last : UInt16)
  | escape (kind : EscapeClass) (negated : Bool)
  deriving DecidableEq, Repr

/-- How often a quantified part occurs, with the way it was written kept:
`*`, `+` and `?` on one side, braces on the other. -/
inductive Repetition where
  | star
  | plus
  | optional
  | counted (least : Nat) (most : Option Nat)
  deriving DecidableEq, Repr

inductive GroupKind where
  | capture (name : Option GroupName)
  | plain
  | modified (on off : List Char)
  deriving DecidableEq, Repr

inductive GroupRef where
  | number (n : Nat)
  | name (name : GroupName)
  deriving DecidableEq, Repr

inductive Regex where
  | empty
  | unit (u : UInt16)
  /-- The dot: any unit that is no line end. -/
  | any
  | escape (kind : EscapeClass) (negated : Bool)
  | oneOf (negated : Bool) (members : List ClassMember)
  | start
  | finish
  | wordEdge (negated : Bool)
  /-- A lookahead, or a lookbehind if `behind` holds. -/
  | look (behind negated : Bool) (body : Regex)
  | backreference (target : GroupRef)
  | group (kind : GroupKind) (body : Regex)
  | repeated (body : Regex) (times : Repetition) (isLazy : Bool)
  | concat (first rest : Regex)
  | either (left right : Regex)
  deriving DecidableEq, Repr

namespace Regex

def sequence : List Regex → Regex
  | [] => empty
  | part :: parts => concat part (sequence parts)

/-- The choice between the branches; of one branch, that branch. -/
def choice : List Regex → Regex
  | [] => empty
  | [branch] => branch
  | branch :: next :: branches => either branch (choice (next :: branches))

def captureCount : Regex → Nat
  | look _ _ body => body.captureCount
  | group (.capture _) body => body.captureCount + 1
  | group _ body => body.captureCount
  | repeated body _ _ => body.captureCount
  | concat first rest => first.captureCount + rest.captureCount
  | either left right => left.captureCount + right.captureCount
  | _ => 0

/-- The names of the capturing groups, in order of their opening. -/
def groupNames : Regex → List GroupName
  | look _ _ body => body.groupNames
  | group (.capture (some name)) body => name :: body.groupNames
  | group _ body => body.groupNames
  | repeated body _ _ => body.groupNames
  | concat first rest => first.groupNames ++ rest.groupNames
  | either left right => left.groupNames ++ right.groupNames
  | _ => []

/-- No name is given twice, except in different branches of one choice. -/
def namesDistinct : Regex → Bool
  | look _ _ body => body.namesDistinct
  | group (.capture (some name)) body => !body.groupNames.contains name && body.namesDistinct
  | group _ body => body.namesDistinct
  | repeated body _ _ => body.namesDistinct
  | concat first rest =>
    first.groupNames.all (fun name => !rest.groupNames.contains name) &&
      first.namesDistinct && rest.namesDistinct
  | either left right => left.namesDistinct && right.namesDistinct
  | _ => true

/-- Every backreference means a group: its number is at most `count`, its name one of `names`. -/
def referencesExist (count : Nat) (names : List GroupName) : Regex → Bool
  | backreference (.number n) => n ≤ count
  | backreference (.name name) => names.contains name
  | look _ _ body => body.referencesExist count names
  | group _ body => body.referencesExist count names
  | repeated body _ _ => body.referencesExist count names
  | concat first rest => first.referencesExist count names && rest.referencesExist count names
  | either left right => left.referencesExist count names && right.referencesExist count names
  | _ => true

/-- The rules that concern the tree as a whole. A reference may stand before its group. -/
def isScoped (r : Regex) : Bool :=
  r.namesDistinct && r.referencesExist r.captureCount r.groupNames

end Regex

end DomainRules
