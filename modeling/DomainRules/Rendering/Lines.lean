import DomainRules.Item
import DomainRules.Wildcard
/-!
The line dialects. Every rule becomes one line, and comments are held back until the next active
rule line: the marks of inclusions queue up, of all others only the latest is kept. A rule that is
rendered commented out counts as such a comment.
-/
namespace DomainRules

def isCommentLine (line : String) : Bool := (Text.trim line.toList).head? == some '#'

def isInclusionMark (comment : String) : Bool :=
  "# include:".toList.isPrefixOf (Text.trim comment.toList)

namespace Rendering

/-- The lines of the items, given the comments held back so far. -/
def lines (lineOf : Rule → String) (marks : List String) (latest : String) :
    List Item → List String
  | [] => []
  | .comment text :: items =>
    if isInclusionMark text then lines lineOf (marks ++ [text]) latest items
    else lines lineOf marks text items
  | .rule rule :: items =>
    let line := lineOf rule
    if isCommentLine line then lines lineOf marks line items
    else marks ++ (if latest = "" then [] else [latest]) ++ line :: lines lineOf [] "" items

def ofLines (lineOf : Rule → String) (items : List Item) : String :=
  String.intercalate "\n" (lines lineOf [] "" items)

end Rendering

def Comparison.lineName : Comparison → List Char
  | .suffix => "DOMAIN-SUFFIX".toList
  | .exact => "DOMAIN".toList
  | .keyword => "DOMAIN-KEYWORD".toList
  | .regex => "DOMAIN-REGEX".toList

/-- Why a regular expression is not published as a wildcard. -/
inductive Refusal where
  /-- Its wildcard would lose too much. -/
  | dangerous
  /-- Its wildcard holds no literal text. -/
  | bare
  deriving DecidableEq, Repr

def Refusal.label : Refusal → String
  | .dangerous => "dangerous"
  | .bare => "wildcard-only"

namespace Rule

def refusal? (rule : Rule) : Option Refusal :=
  match rule.kind with
  | .regex =>
    if isDangerous rule.value.toList then some .dangerous
    else if (Wildcard.ofText rule.value.toList).isBare then some .bare
    else none
  | _ => none

def lineOf (name value : List Char) (rule : Rule) : String :=
  String.ofList (withComment (name ++ ',' :: value) rule.comment.toList)

/-- The line of a rule where regular expressions are understood. -/
def mihomoLine (rule : Rule) : String := rule.lineOf rule.kind.lineName rule.value.toList

def wildcardText (rule : Rule) : List Char := Text.ofUnits (Wildcard.ofText rule.value.toList)

/-- The line of a rule where only wildcards are understood. A refused rule is commented out. -/
def surgeLine (rule : Rule) : String :=
  match rule.kind with
  | .regex => match rule.refusal? with
    | some .dangerous => rule.lineOf "# DANGEROUS-REGEX".toList rule.value.toList
    | some .bare => rule.lineOf "# SKIPPED-DOMAIN-WILDCARD".toList rule.wildcardText
    | none => rule.lineOf "DOMAIN-WILDCARD".toList rule.wildcardText
  | _ => rule.mihomoLine

end Rule

end DomainRules
