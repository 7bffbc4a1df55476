import DomainRules.Http.Outgoing
import DomainRules.Notice
import DomainRules.Text.Blank

namespace DomainRules.Extras

open Http

/-- An answer of the server that keeps the lists. -/
inductive Answer where
  | failed (reason : String)
  | answered (status : Number) (body : String)
  deriving DecidableEq, Repr

def isAlphanumeric (c : Char) : Bool := c.isAlphanum

/-- Whether a name is plain: a letter or digit, then letters, digits, dots, underscores and
hyphens. -/
def isPlainName : List Char → Bool
  | [] => false
  | c :: rest => isAlphanumeric c &&
    rest.all fun d => isAlphanumeric d || d = '.' || d = '_' || d = '-'

/-- The path of a list, if its category and its name are plain. Blanks around them are ignored. -/
def path? (category name : String) : Option String :=
  let category := Text.trim category.toList
  let name := Text.trim name.toList
  if isPlainName category && isPlainName name then
    some (String.ofList (category ++ '/' :: name))
  else none

def address (base path : String) : String :=
  String.ofList (Text.dropTrailingSlashes base.toList) ++ "/" ++ path ++ ".list"

/-- The page for a list, and what serving it makes known. -/
def serve (path : String) : Answer → Page × List Notice
  | .failed _ =>
    (.message 502 "Failed to fetch upstream list", [.log .warn "Failed to fetch misc list"])
  | .answered status body =>
    if status = .ofNat 404 then (.message 404 ("List not found: " ++ path), [])
    else if status ≠ .ofNat 200 then
      (.message 502 "Failed to fetch upstream list", [.log .warn "Unexpected misc list status"])
    else (.document Page.plainText body, [])

def page (base category name : String) (answer : Answer) : Page × List Notice :=
  match path? category name with
  | none => (.message 400 "Invalid list path", [])
  | some path =>
    let (page, notices) := serve path answer
    (page, .sent "GET" (address base path) :: notices)

end DomainRules.Extras
