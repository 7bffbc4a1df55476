import DomainRules.Failure
import DomainRules.Value

namespace DomainRules

structure Report where
  name : Value
  message : Value
  stack : Option Value
  details : List (String × Value)

namespace Report

/-- The details that a failure takes. A cyclic inclusion has only its own. -/
def detailsFor (failure : Failure) (details : List (String × Value)) : List (String × Value) :=
  match failure with
  | .cyclicInclude _ => []
  | _ => details.filter fun (key, _) => key ≠ Value.background

def ownDetails : Failure → List (String × Value)
  | .listNotFound member => [("member", .text member)]
  | .cyclicInclude chain => [("chain", .list (chain.map .text))]
  | _ => []

/-- The report of a failure with the details that it takes. Its own details win. -/
def ofTaken (failure : Failure) (details : List (String × Value)) : Report where
  name := (details.lookup "name").getD (.text failure.label)
  message := (details.lookup "message").getD (.text failure.message)
  stack := (details.lookup "stack").filter fun stack => match stack with
    | .null => false
    | _ => true
  details :=
    let given := details.filter fun (key, _) => !(["name", "message", "stack"].contains key)
    (ownDetails failure).foldl (fun fields (key, value) => Value.insertField key value fields) given

def of (failure : Failure) (details : List (String × Value)) : Report :=
  ofTaken failure (detailsFor failure details)

/-- Whether the report comes from the operating system, which gives every fault a code. -/
def isSystemFault (report : Report) : Bool := report.details.any (·.1 = "code")

/-- The report as a record, without its name and stack. -/
def record (report : Report) : Value :=
  (Value.record (("message", report.message) :: report.details)).sorted

end Report

end DomainRules
