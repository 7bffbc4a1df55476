import DomainRules.Number.Basic
/-!
What an operation lets the outside know besides its result: log entries and metric changes, in
the order in which they happen.
-/
namespace DomainRules

/-- The severities of log entries, the gravest first. -/
inductive LogLevel where
  | error
  | warn
  | info
  | http
  | verbose
  | debug
  | silly
  deriving DecidableEq, Repr

namespace LogLevel

def label : LogLevel → String
  | .error => "error"
  | .warn => "warn"
  | .info => "info"
  | .http => "http"
  | .verbose => "verbose"
  | .debug => "debug"
  | .silly => "silly"

/-- The place of a severity in the order, zero for the gravest. -/
def rank : LogLevel → Nat
  | .error => 0
  | .warn => 1
  | .info => 2
  | .http => 3
  | .verbose => 4
  | .debug => 5
  | .silly => 6

def ofLabel? (label : String) : Option LogLevel :=
  [error, warn, info, http, verbose, debug, silly].find? (·.label == label)

end LogLevel

inductive Metric where
  | archiveProbes
  | archiveDownloads
  | staleArchives
  | persistErrors
  | archiveSize
  | cacheHits
  | cacheMisses
  | sweptResults
  | renderErrors
  | regexRefusals
  deriving DecidableEq, Repr

inductive Notice where
  | log (level : LogLevel) (message : String)
  /-- A request was answered; the path is shown beside the message. -/
  | answered (method path : String) (status : Nat)
  /-- A counter went up. The label is empty for a metric without one. -/
  | count (metric : Metric) (label : String) (amount : Nat)
  | gauge (metric : Metric) (value : Nat)
  /-- A request was sent to another server. -/
  | sent (method url : String)
  /-- The server ended, with a code if one was given. -/
  | ended (code : Option Number)
  deriving DecidableEq, Repr

namespace Notice

def tick (metric : Metric) : Notice := .count metric "" 1

end Notice

end DomainRules
