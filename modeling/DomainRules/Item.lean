import DomainRules.Text.Blank
/-!
The items of a list: rules on domains, and comments. A rule keeps the text behind its value, which
holds its attributes and its comment; a filter selects rules by their attributes.
-/
namespace DomainRules

/-- How the value of a rule is compared with a domain. -/
inductive Comparison where
  | suffix
  | exact
  | keyword
  | regex
  deriving DecidableEq, Repr

def Comparison.label : Comparison → String
  | .suffix => "domain-suffix"
  | .exact => "domain"
  | .keyword => "domain-keyword"
  | .regex => "domain-regex"

def Comparison.mark : Comparison → List Char
  | .suffix => "domain:".toList
  | .exact => "full:".toList
  | .keyword => "keyword:".toList
  | .regex => "regexp:".toList

structure Rule where
  kind : Comparison
  value : String
  /-- The text behind the value on the same line. -/
  comment : String
  deriving DecidableEq, Repr

inductive Item where
  | rule (rule : Rule)
  | comment (text : String)
  deriving DecidableEq, Repr

/-- Whether the text behind a value carries the attribute that the filter names. The text must
start with an attribute, and the filter must occur behind an at sign before any number sign. -/
def carriesFilter (filter rest : List Char) : Bool :=
  filter.isEmpty ||
    (let shown := Text.trim rest
     shown.head? == some '@' &&
       match Text.indexOf? ('@' :: filter) shown, Text.indexOf? ['#'] shown with
       | none, _ => false
       | some _, none => true
       | some i, some j => i < j)

def Rule.isSelectedBy (filter : String) (rule : Rule) : Bool :=
  carriesFilter filter.toList rule.comment.toList

def Item.rule? : Item → Option Rule
  | .rule r => some r
  | .comment _ => none

def rulesOf (items : List Item) : List Rule := items.filterMap Item.rule?

/-- A line with a comment behind it. A comment that does not start with a number sign gets one. -/
def withComment (line comment : List Char) : List Char :=
  match comment with
  | [] => line
  | '#' :: _ => line ++ ' ' :: comment
  | _ => line ++ ' ' :: '#' :: ' ' :: comment

end DomainRules
