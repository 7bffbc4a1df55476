import DomainRules.Failure
import DomainRules.Notice
import DomainRules.Number.Basic
/-!
Work that is repeated at an interval. Starting it again leaves the earlier timer running, and only
the latest timer can be stopped.
-/
namespace DomainRules

structure Repeater where
  /-- Milliseconds from one run to the next. Without a positive interval nothing is repeated. -/
  interval : Number
  /-- The number of timers that can no longer be stopped. -/
  stray : Nat := 0
  isRunning : Bool := false
  deriving DecidableEq, Repr

namespace Repeater

def isEnabled (repeater : Repeater) : Bool := (Number.finite 0).lt repeater.interval

def live (repeater : Repeater) : Nat := repeater.stray + if repeater.isRunning then 1 else 0

def intervals (repeater : Repeater) : List Number := List.replicate repeater.live repeater.interval

def start (repeater : Repeater) : Repeater :=
  if repeater.isEnabled then { repeater with stray := repeater.live, isRunning := true }
  else repeater

/-- Stops the latest timer. -/
def stop (repeater : Repeater) : Repeater := { repeater with isRunning := false }

end Repeater

inductive Chore where
  | refresh
  | sweep
  deriving DecidableEq, Repr

namespace Chore

def startNotices (chore : Chore) (repeater : Repeater) : List Notice :=
  match chore, repeater.isEnabled with
  | .refresh, true => [.log .info "Started archive refresh worker"]
  | .refresh, false => [.log .info "Archive refresh disabled"]
  | .sweep, true => [.log .info "Started result cache sweeper"]
  | .sweep, false => [.log .info "Result cache sweeper disabled"]

def stopNotices : Chore → List Notice
  | .refresh => [.log .info "Stopped archive refresh worker"]
  | .sweep => [.log .info "Stopped result cache sweeper"]

def sweptNotices (count : Nat) : List Notice :=
  [.count .sweptResults "" count, .log .debug "Result cache swept"]

/-- Whether the version that a refresh in the background brought is announced: it is, if another one
was held when the refresh began. -/
def isAnnounced (previous fingerprint : Option String) : Bool := fingerprint ≠ previous

def refreshedNotices (previous : Option String) : Except Failure (Option String) → List Notice
  | .ok fingerprint =>
    if isAnnounced previous fingerprint then [.log .info "Archive refreshed"] else []
  | .error _ => [.log .error "Archive refresh failed"]

end Chore

end DomainRules
