import DomainRules.Journal
import DomainRules.Publisher
import DomainRules.Repeater
import DomainRules.Site
import DomainRules.Supply

namespace DomainRules

open Http

/-- What other servers answer. -/
structure World where
  probe : Publisher.Answer
  download : Publisher.Answer
  extra : Extras.Answer

structure Server where
  settings : Settings
  supply : Supply Unit
  site : Site
  refreshing : Repeater
  sweeping : Repeater
  isStopping : Bool := false

namespace Server

def sentNotice (url : String) : Errand → Notice
  | .probe => .sent "HEAD" url
  | .download => .sent "GET" url

/-- Lets a refresh of the supply run to its end. Without a refresh there is no outcome. -/
def runRefresh (url : String) (supply : Supply Unit) (now : Number) (world : World) :
    Supply Unit × Option (Except Failure Snapshot) × List Notice :=
  let version := Publisher.version url world.probe
  let asked := sentNotice url .probe :: Publisher.versionNotices url world.probe
  match supply.probed now version with
  | (supply, .ignored, _) => (supply, none, [])
  | (supply, .ended _ outcome, notices) => (supply, some outcome, asked ++ notices)
  | (supply, .downloads, notices) =>
    let fetched := Publisher.downloadNotices ++ sentNotice url .download ::
      Publisher.archiveNotices url world.download
    match supply.downloaded now (Publisher.archive url world.download) with
    | (supply, .ended _ outcome, more) => (supply, some outcome, asked ++ notices ++ fetched ++ more)
    | (supply, _, more) => (supply, none, asked ++ notices ++ fetched ++ more)

/-- Asks for an archive, with a refresh in any case or only if the archive that is held is not
current. -/
def obtain (server : Server) (now : Number) (world : World) (isForced : Bool) :
    Server × Delivery :=
  let (supply, answer) :=
    if isForced then server.supply.force () else server.supply.ensure now ()
  match answer with
  | .held snapshot => ({ server with supply }, { outcome := .ok snapshot })
  | _ =>
    let (supply, outcome?, notices) := runRefresh server.settings.archiveUrl supply now world
    -- The supply is idle between two requests, so the refresh has an outcome.
    let outcome := outcome?.getD (.error .emptyFingerprint)
    ({ server with supply }, { outcome, notices })

def note (server : Server) (notices : List Notice) : Server :=
  { server with site := { server.site with metrics := server.site.metrics.noteAll notices } }

/-- Brings the index up to date. A failure is logged with the given message. -/
def refreshIndex (server : Server) (now : Number) (world : World) (onFailure : String) :
    Server × List Notice :=
  if !server.site.catalog.isPublic then (server, [])
  else
    let (server, delivery) := server.obtain now world false
    let (catalog, outcome, notices) := server.site.catalog.refresh delivery.outcome
    let failed : List Notice := match outcome with
      | .ok _ => []
      | .error _ => [.log .error onFailure]
    ({ server with site := { server.site with catalog } },
      delivery.notices ++ notices ++ failed)

/-- Refreshes the archive in the background. A new version makes the index be rebuilt. -/
def refresh (server : Server) (now : Number) (world : World) : Server × List Notice :=
  let previous := server.supply.holding.fingerprint?
  let (server, delivery) := server.obtain now world true
  let outcome := delivery.outcome.map (·.fingerprint)
  let notices := delivery.notices ++ Chore.refreshedNotices previous outcome
  match outcome with
  | .error _ => (server, notices)
  | .ok fingerprint =>
    if !Chore.isAnnounced previous fingerprint || server.isStopping then (server, notices)
    else
      let (server, more) := server.refreshIndex now world "Failed to refresh list index"
      (server, notices ++ more)

def sweep (server : Server) (now : Number) : Server × List Notice :=
  let rulesets := server.site.rulesets
  ({ server with site := { server.site with rulesets := rulesets.sweep now } },
    rulesets.sweepNotices now ++ Chore.sweptNotices (rulesets.store.sweptCount now))

def ofSettings (settings : Settings) (cacheFile indexFile : Option FileSlot) :
    Except Failure Server := do
  let store ← Memo.Store.ofLimits (.ofNat (1000 * settings.answerLifetime))
    (.ofNat settings.answerLimit)
  return {
    settings
    supply := { holding := {
      lifetime := .ofNat (1000 * settings.archiveLifetime)
      directory := settings.archiveDirectory
      file := cacheFile.getD { path := settings.archiveFile.getD "" }
      isPersistent := settings.archiveFile.isSome } }
    site := {
      signposts := Signpost.status (.under "/metrics" 0) ++ Signpost.lists ++
        (if settings.extrasUrl.isSome then Signpost.extras else [])
      homeUrl := settings.homeUrl
      extrasBase := settings.extrasUrl.getD ""
      rulesets := { store }
      catalog := .ofAddress settings.publicUrl indexFile }
    refreshing := { interval := .ofNat (1000 * settings.archiveInterval) }
    sweeping := { interval := .ofNat (1000 * settings.answerInterval) } }

/-- Brings the stored archive back, if archives are stored. -/
def restore (server : Server) : Server × List Notice :=
  if !server.supply.holding.isPersistent then (server, [])
  else
    let (holding, outcome, notices) := server.supply.holding.load
    let closing : Notice := match outcome with
      | .ok _ => .log .info "Archive snapshot load finished"
      | .error _ => .log .warn "Failed to load archive snapshot"
    ({ server with supply := { server.supply with holding } }, notices ++ [closing])

/-- Starts the server: the stored archive comes back, the index is built, and the work in the
background begins. The first refresh ends when the server already listens. -/
def start (server : Server) (now : Number) (world : World) : Server × List Notice :=
  let (server, restored) := server.restore
  let (server, indexed) := server.refreshIndex now world "Failed to build initial list index"
  let begun := Chore.startNotices .refresh server.refreshing ++
    Chore.startNotices .sweep server.sweeping ++
    (if server.settings.extrasUrl.isSome then []
      else [.log .info "[app] misc list proxy disabled"]) ++
    [.log .info ("Listening on port " ++ String.ofList (Number.ofNat server.settings.tcpPort).text)]
  let server := { server with
    refreshing := server.refreshing.start
    sweeping := server.sweeping.start }
  let (server, refreshed) :=
    if server.refreshing.isEnabled then server.refresh now world else (server, [])
  let notices := restored ++ indexed ++ begun ++ refreshed
  (server.note notices, notices)

/-- The timers run down once. What needs no other server is done first. -/
def tick (server : Server) (now : Number) (world : World) : Server × List Notice :=
  let (server, swept) := if server.sweeping.isRunning then server.sweep now else (server, [])
  let (server, refreshed) :=
    if server.refreshing.isRunning then server.refresh now world else (server, [])
  (server.note (swept ++ refreshed), swept ++ refreshed)

/-- The answer to a question for options, which pages of other sites ask before they read. -/
def preflight : Page := { status := 204, type := none, body := "", isOpen := true }

/-- Any site may read the pages. -/
def opened : Outgoing → Outgoing
  | .page page => .page { page with isOpen := true }
  | .standard status => .standard status

def respond (server : Server) (now : Number) (world : World) (incoming : Incoming) :
    Server × Outgoing × List Notice :=
  if !incoming.isWellFormed then (server, .page Page.refusal, [])
  else if incoming.path?.isNone then (server, .standard 404, [])
  else if incoming.method = "OPTIONS" then (server, .page preflight, [])
  else
    let (server, delivery) :=
      if server.site.asksArchive incoming then server.obtain now world false
      else (server, { outcome := .error .emptyFingerprint })
    let served := server.site.respond {
      now
      fingerprint := server.supply.holding.fingerprint?
      delivery
      extra := world.extra } incoming
    ({ server with site := served.site }, opened served.outgoing,
      served.work ++ served.notices ++ Site.completed incoming served.outgoing)

/-- Shuts the server down with a code, unless that is already under way. -/
def shutdown (server : Server) (code : Option Number) : Server × List Notice :=
  if server.isStopping then (server, [.log .info "Shutdown already in progress"])
  else
    ({ server with
        isStopping := true
        refreshing := server.refreshing.stop
        sweeping := server.sweeping.stop },
      .log .info "Shutting down..." :: Chore.stopNotices .refresh ++ Chore.stopNotices .sweep ++
        [.ended code])

def signal (server : Server) (name : String) : Server × List Notice :=
  if name = "SIGINT" || name = "SIGTERM" then server.shutdown (some (.ofNat 0)) else (server, [])

def unhandledNotices (message : String) : List Notice :=
  [.log .error ("Uncaught exception:" ++ if message = "" then "" else " " ++ message)]

end Server

namespace Journal

/-- The notices without the log entries that are not shown. -/
def keep (journal : Journal) (notices : List Notice) : List Notice :=
  notices.filter fun
    | .log level _ => journal.shows level
    | .answered _ _ _ => journal.shows .info
    | _ => true

end Journal

end DomainRules
