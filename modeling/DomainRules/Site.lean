import DomainRules.Catalog
import DomainRules.Extras
import DomainRules.Http.Incoming
import DomainRules.Http.Route
import DomainRules.Metrics
import DomainRules.Rulesets
import DomainRules.Value

namespace DomainRules

open Http

/-- What asking for a current archive came to. -/
structure Delivery where
  outcome : Except Failure Snapshot
  notices : List Notice := []

/-- The rest of the server as a page sees it. -/
structure Moment where
  now : Number
  fingerprint : Option String
  /-- The archive, for pages that ask for it. -/
  delivery : Delivery
  /-- The hand-kept list, for pages that ask for one. -/
  extra : Extras.Answer

/-- The pages with what they keep from one request to the next. -/
structure Site where
  signposts : List Signpost
  /-- Where the root leads: an address, or the word that sends clients back. -/
  homeUrl : String
  extrasBase : String
  rulesets : Rulesets
  catalog : Catalog
  metrics : Metrics := {}

structure Served where
  site : Site
  outgoing : Outgoing
  /-- What the work behind the page made known. -/
  work : List Notice := []
  /-- What the page itself made known, after the work. -/
  notices : List Notice := []

namespace Site

def failureNotice (failure : Failure) : Notice :=
  match failure.kind? with
  | some .notFound => .log .info "Ruleset not found"
  | some .format => .log .error "Failed to convert ruleset"
  | some .cyclicInclude => .log .error "Failed to convert ruleset"
  | _ => .log .error "Failed to fetch upstream"

def listPage (dialect : Dialect) : Except Failure String → Page
  | .ok body =>
    .document (if dialect = .egern then Page.yamlText else Page.plainText) body
  | .error failure =>
    .message (Page.statusOf failure) ("Failed to generate ruleset: " ++ failure.message)

def serveList (site : Site) (moment : Moment) (dialect : Dialect) (segment : String) : Served :=
  let selection := Selection.ofSegment segment
  if selection.name = "" then
    { site, outgoing := .page (.message 400 "Invalid name parameter") }
  else
    let (rulesets, outcome, work) := match moment.delivery.outcome with
      | .error failure => (site.rulesets, .error failure, [])
      | .ok snapshot => site.rulesets.answerOne moment.now snapshot { selection, dialect }
    { site := { site with rulesets }
      outgoing := .page (listPage dialect outcome)
      work := moment.delivery.notices ++ work
      notices := match outcome with
        | .ok _ => []
        | .error failure => [failureNotice failure] }

def serveIndex (site : Site) (moment : Moment) (address : String) : Served :=
  let work := site.catalog.filedNotices ++
    if site.catalog.ready?.isNone then moment.delivery.notices else []
  match site.catalog.body address moment.delivery.outcome with
  | .ok body => { site, outgoing := .page (.document Page.jsonText body), work }
  | .error failure =>
    { site
      outgoing := .page
        (.message (Page.statusOf failure) ("Failed to generate index: " ++ failure.message))
      work
      notices := [.log .error "Failed to generate index"] }

def healthPage (moment : Moment) : Page :=
  let version := match moment.fingerprint with
    | some fingerprint => [("archiveFingerprint", Value.text fingerprint)]
    | none => []
  { status := 200
    type := some Page.jsonText
    body := String.ofList (Value.record (("status", .text "ok") :: version)).json
    isDated := true }

def serve (site : Site) (moment : Moment) (incoming : Incoming) :
    Route → List String → Served
  | .health, _ => { site, outgoing := .page (healthPage moment) }
  | .metrics, _ =>
    { site
      outgoing := .page {
        status := 200
        type := some Page.metricsText
        body := site.metrics.exposition } }
  | .home, _ =>
    let target := if site.homeUrl = "back" then incoming.cameFrom else site.homeUrl
    { site, outgoing := .page (.redirect target (incoming.header? "accept")) }
  | .index, _ => site.serveIndex moment incoming.address
  | .list dialect, segment :: _ => site.serveList moment dialect segment
  | .extra, category :: name :: _ =>
    let (page, notices) := Extras.page site.extrasBase category name moment.extra
    { site, outgoing := .page page, notices }
  | _, _ => { site, outgoing := .standard 404 }

/-- An answer as it leaves: a request that wants no body gets none. -/
def finished (incoming : Incoming) : Outgoing → Outgoing
  | .page page => .page (if incoming.isBodiless then page.bodiless else page)
  | .standard status => .standard status

def resolved (site : Site) (incoming : Incoming) : Resolution :=
  match incoming.path? with
  | some path => resolve site.signposts path
  | none => .missing

def isMalformed (site : Site) (incoming : Incoming) : Bool :=
  incoming.path?.any (Http.isMalformed site.signposts)

/-- Answers a request. Only reading requests lead to a page, and a question for options is answered
wherever there is one. Any other request is tried on every pattern in vain. -/
def respond (site : Site) (moment : Moment) (incoming : Incoming) : Served :=
  let served : Served := match site.resolved incoming with
    | .malformed => { site, outgoing := .standard 400 }
    | .missing =>
      { site
        outgoing := if incoming.isWellFormed then .standard 404 else .page Page.refusal }
    | .found route parameters =>
      if incoming.isReading then
        let served := site.serve moment incoming route parameters
        { served with outgoing := finished incoming served.outgoing }
      else if incoming.method = "OPTIONS" then { site, outgoing := .standard 200 }
      else { site, outgoing := .standard (if site.isMalformed incoming then 400 else 404) }
  { served with site := { served.site with
      metrics := served.site.metrics.noteAll (served.work ++ served.notices) } }

def asksArchive (site : Site) (incoming : Incoming) : Bool :=
  incoming.isReading && match site.resolved incoming with
    | .found .index _ => site.catalog.ready?.isNone
    | .found (.list _) (segment :: _) => (Selection.ofSegment segment).name ≠ ""
    | _ => false

/-- What is logged when an answer has left: nothing, if the request names no path. -/
def completed (incoming : Incoming) (outgoing : Outgoing) : List Notice :=
  match incoming.path? with
  | some path => [.answered incoming.method (String.ofList path) outgoing.status]
  | none => []

end Site

end DomainRules
