import DomainRules.Archive
import DomainRules.Text.Blank

namespace DomainRules.Fingerprint

/-- The version that an entity tag names; it may come out empty. -/
def ofEntityTag (tag : String) : String :=
  let bare := tag.toList.filter (· ≠ '"')
  let strong := match bare with
    | 'W' :: '/' :: rest => rest
    | _ => bare
  String.ofList (Text.trim strong)

end DomainRules.Fingerprint

namespace DomainRules

structure Snapshot where
  archive : Archive
  /-- The version, if the publisher gave one. -/
  fingerprint : Option String
  deriving DecidableEq, Repr

end DomainRules
