import DomainRules.Http.Target

namespace DomainRules.Http

def methods : List String :=
  ["ACL", "BIND", "CHECKOUT", "COPY", "DELETE", "GET", "HEAD", "LINK", "LOCK", "M-SEARCH", "MERGE",
    "MKACTIVITY", "MKCALENDAR", "MKCOL", "MOVE", "NOTIFY", "OPTIONS", "PATCH", "POST", "PROPFIND",
    "PROPPATCH", "PURGE", "PUT", "QUERY", "REBIND", "REPORT", "SEARCH", "SOURCE", "SUBSCRIBE",
    "TRACE", "UNBIND", "UNLINK", "UNLOCK", "UNSUBSCRIBE"]

structure Incoming where
  method : String
  target : String
  headers : List (String × String)
  deriving DecidableEq, Repr

namespace Incoming

/-- A header value without the spaces and tabs around it. -/
def bareValue (value : String) : String :=
  let isAround (c : Char) : Bool := c = ' ' || c = '\t'
  String.ofList ((value.toList.dropWhile isAround).reverse.dropWhile isAround).reverse

/-- Headers of which only the first counts. Of others all values count, one behind the other. -/
def singleHeaders : List String :=
  ["age", "authorization", "content-length", "content-type", "etag", "expires", "from", "host",
    "if-modified-since", "if-unmodified-since", "last-modified", "location", "max-forwards",
    "proxy-authorization", "referer", "retry-after", "server", "user-agent"]

/-- The values of the headers of a name, which is given in lower case. -/
def values (incoming : Incoming) (name : String) : List String :=
  (incoming.headers.filter fun (key, _) => key.toList.map Char.toLower = name.toList).map
    fun (_, value) => bareValue value

/-- The value of a header, whose name is given in lower case. -/
def header? (incoming : Incoming) (name : String) : Option String :=
  match incoming.values name with
  | [] => none
  | value :: more =>
    some (if singleHeaders.contains name then value else String.intercalate ", " (value :: more))

def bareTarget (incoming : Incoming) : List Char :=
  ((incoming.target.toList.dropWhile (· = ' ')).reverse.dropWhile (· = ' ')).reverse

def isNameChar (c : Char) : Bool := c.isAlphanum || "!#$%&'*+-.^_`|~".toList.contains c

/-- A character of the value of a header: a tab, or any but the control characters. -/
def isValueChar (c : Char) : Bool := c = '\t' || (0x20 ≤ c.toNat && c.toNat ≠ 0x7F)

def isWellFormed (incoming : Incoming) : Bool :=
  methods.contains incoming.method && Target.isWellFormed incoming.bareTarget &&
    incoming.headers.all fun (name, value) =>
      name ≠ "" && name.toList.all isNameChar && value.toList.all isValueChar

def path? (incoming : Incoming) : Option (List Char) :=
  if incoming.isWellFormed then Target.path? incoming.bareTarget else none

/-- The address under which the client reached the server. What a proxy reports goes first. -/
def address (incoming : Incoming) : String :=
  let host := (incoming.header? "x-forwarded-host").getD
    ((incoming.header? "host").getD "localhost")
  (incoming.header? "x-forwarded-proto").getD "http" ++ "://" ++ host

/-- The page that the client says it comes from, or the root. -/
def cameFrom (incoming : Incoming) : String :=
  (((incoming.header? "referrer").filter (· ≠ "")).or
    ((incoming.header? "referer").filter (· ≠ ""))).getD "/"

/-- Whether the request wants only what stands in front of the body. -/
def isBodiless (incoming : Incoming) : Bool := incoming.method = "HEAD"

def isReading (incoming : Incoming) : Bool :=
  incoming.method = "GET" || incoming.method = "HEAD"

end Incoming

end DomainRules.Http
