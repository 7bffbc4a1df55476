import DomainRules.Item
import DomainRules.Notice
import DomainRules.Rendering.Lines
import DomainRules.Request
import DomainRules.Text.Blank
import DomainRules.Yaml.Quoted

namespace DomainRules

def Comparison.setName : Comparison → List Char
  | .exact => "domain_set".toList
  | .suffix => "domain_suffix_set".toList
  | .keyword => "domain_keyword_set".toList
  | .regex => "domain_regex_set".toList

def setOrder : List Comparison := [.exact, .suffix, .keyword, .regex]

def valuesOf (kind : Comparison) (items : List Item) : List String :=
  ((rulesOf items).filter (·.kind = kind)).map (·.value)

namespace Rendering

/-- The indentation of what continues a value. -/
def valueIndent : List Char := List.replicate 4 ' '

/-- The line of one value; it may hold line breaks. -/
def valueLine (value : String) : List Char :=
  ' ' :: ' ' :: '-' :: ' ' :: Yaml.quoted valueIndent value.toList

def setLines (kind : Comparison) (items : List Item) : List (List Char) :=
  match valuesOf kind items with
  | [] => []
  | values => (kind.setName ++ [':']) :: values.map valueLine

def ofSets (items : List Item) : String :=
  String.ofList (Text.joinWith ['\n'] (setOrder.flatMap fun kind => setLines kind items))

end Rendering

def render (dialect : Dialect) (items : List Item) : String :=
  match dialect with
  | .surge => Rendering.ofLines Rule.surgeLine items
  | .mihomo => Rendering.ofLines Rule.mihomoLine items
  | .egern => Rendering.ofSets items

/-- What rendering makes known: every refused rule is counted. -/
def renderNotices (dialect : Dialect) (items : List Item) : List Notice :=
  match dialect with
  | .surge => (rulesOf items).filterMap fun rule =>
      rule.refusal?.map fun refusal => .count .regexRefusals refusal.label 1
  | _ => []

end DomainRules
