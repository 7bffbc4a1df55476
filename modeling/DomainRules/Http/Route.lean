import DomainRules.Http.Pattern
import DomainRules.Request

namespace DomainRules.Http

inductive Route where
  | health
  | metrics
  | home
  | index
  | list (dialect : Dialect)
  | extra
  deriving DecidableEq, Repr

structure Signpost where
  pattern : Pattern
  route : Route
  deriving DecidableEq, Repr

/-- What a path leads to. -/
inductive Resolution where
  | missing
  /-- A parameter cannot be unescaped. -/
  | malformed
  | found (route : Route) (parameters : List String)
  deriving DecidableEq, Repr

def Signpost.resolve (post : Signpost) (path : List Char) : Resolution :=
  match post.pattern.captures? path with
  | none => .missing
  | some raw => match raw.mapM Text.unescape? with
    | some parameters => .found post.route (parameters.map String.ofList)
    | none => .malformed

/-- What a path leads to: the first pattern that it matches counts. -/
def resolve : List Signpost → List Char → Resolution
  | [], _ => .missing
  | post :: posts, path => match post.resolve path with
    | .missing => resolve posts path
    | resolution => resolution

/-- Whether a path matches some pattern with a parameter that cannot be unescaped. -/
def isMalformed (posts : List Signpost) (path : List Char) : Bool :=
  posts.any fun post => post.resolve path = .malformed

namespace Signpost

/-- Where the state of the server is found. -/
def status (metrics : Pattern) : List Signpost :=
  [⟨.under "/healthcheck" 0, .health⟩, ⟨metrics, .metrics⟩]

def lists : List Signpost :=
  [⟨.segments [], .home⟩,
    ⟨.under "/geosite" 0, .index⟩,
    ⟨.under "/geosite/surge" 0, .index⟩,
    ⟨.under "/geosite/mihomo" 0, .index⟩,
    ⟨.under "/geosite/egern" 0, .index⟩,
    ⟨.under "/geosite/surge" 1, .list .surge⟩,
    ⟨.under "/geosite/mihomo" 1, .list .mihomo⟩,
    ⟨.under "/geosite/egern" 1, .list .egern⟩,
    ⟨.under "/geosite" 1, .list .surge⟩]

/-- Where hand-kept lists are found. -/
def extras : List Signpost :=
  [⟨.under "/misc" 2, .extra⟩]

end Signpost

end DomainRules.Http
