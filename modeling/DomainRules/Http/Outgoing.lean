import DomainRules.Failure
import DomainRules.Http.Accept
import DomainRules.Text.Percent

namespace DomainRules.Http

/-- A page with the headers that differ from page to page. -/
structure Page where
  status : Nat
  type : Option String
  body : String
  /-- Whether clients may keep the page for a while. -/
  isCacheable : Bool := false
  location : Option String := none
  /-- Whether the body also holds the time and the age of the server. -/
  isDated : Bool := false
  /-- Whether pages of any other site may read the page. -/
  isOpen : Bool := false
  deriving DecidableEq, Repr

inductive Outgoing where
  | page (page : Page)
  /-- The standard page of a status. -/
  | standard (status : Nat)
  deriving DecidableEq, Repr

def cacheControl : String := "public, max-age=1800"

namespace Page

def plainText : String := "text/plain; charset=utf-8"

def yamlText : String := "text/yaml; charset=utf-8"

def jsonText : String := "application/json; charset=utf-8"

def metricsText : String := "text/plain; charset=utf-8; version=0.0.4"

def message (status : Nat) (body : String) : Page := { status, type := some plainText, body }

/-- A document that clients may keep. -/
def document (type body : String) : Page :=
  { status := 200, type := some type, body, isCacheable := true }

def statusOf (failure : Failure) : Nat :=
  match failure.kind? with
  | some .notFound => 404
  | some .transport => 502
  | _ => 500

/-- The text with the signs that have a meaning in a page replaced. -/
def escapeMarkup (s : List Char) : List Char :=
  s.flatMap fun c =>
    if c = '"' then "&quot;".toList
    else if c = '&' then "&amp;".toList
    else if c = '\'' then "&#39;".toList
    else if c = '<' then "&lt;".toList
    else if c = '>' then "&gt;".toList
    else [c]

/-- A page that sends the client elsewhere. It says so in the kind of text that the client wants. -/
def redirect (target : String) (accept : Option String) : Page :=
  let address := Text.escapeAddress target.toList
  let location := String.ofList address
  let found := "Found. Redirecting to "
  match TextKind.wanted? accept with
  | some .plain => { status := 302, type := some plainText, body := found ++ location, location }
  | some .html =>
    { status := 302
      type := some "text/html; charset=utf-8"
      body := "<p>" ++ found ++ String.ofList (escapeMarkup address) ++ "</p>"
      location }
  | none => { status := 302, type := none, body := "", location }

/-- What is answered to a request that is not well-formed. -/
def refusal : Page := { status := 400, type := none, body := "" }

def bodiless (page : Page) : Page := { page with body := "", isDated := false }

end Page

def Outgoing.status : Outgoing → Nat
  | .page p => p.status
  | .standard status => status

end DomainRules.Http
