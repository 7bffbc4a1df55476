import DomainRules.Text.Blank
import DomainRules.Text.LowerCase

namespace DomainRules

inductive Dialect where
  | surge
  | mihomo
  | egern
  deriving DecidableEq, Repr

def Dialect.label : Dialect → String
  | .surge => "surge"
  | .mihomo => "mihomo"
  | .egern => "egern"

/-- A list and the attribute that selects its rules; the empty filter selects all. -/
structure Selection where
  name : String
  filter : String
  deriving DecidableEq, Repr

namespace Selection

/-- Reads `name@filter` from a path segment. The segment is trimmed and lower-cased, and all
behind the first at sign is the filter. -/
def ofSegment (segment : String) : Selection :=
  let normal := Text.lowerCase (Text.trim segment.toList)
  { name := String.ofList (normal.takeWhile (· ≠ '@'))
    filter := String.ofList ((normal.dropWhile (· ≠ '@')).drop 1) }

end Selection

structure Request where
  selection : Selection
  dialect : Dialect
  deriving DecidableEq, Repr

namespace Request

def key (request : Request) : String :=
  let plain := request.dialect.label ++ ":" ++ request.selection.name
  if request.selection.filter = "" then plain else plain ++ "@" ++ request.selection.filter

end Request

end DomainRules
