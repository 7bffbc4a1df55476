import DomainRules.Bytes
import DomainRules.Failure
import DomainRules.Fingerprint
import DomainRules.Notice

namespace DomainRules

inductive Publisher.Answer where
  | failed (reason : String)
  | answered (status : Number) (entityTag : Option String) (body : Bytes)
  deriving DecidableEq, Repr

namespace Publisher

def outcomeNotice (metric : Metric) : Except Failure α → Notice
  | .ok _ => .count metric "success" 1
  | .error _ => .count metric "error" 1

/-- The body and the entity tag of a successful answer. -/
def accept (errand : Errand) (url : String) :
    Answer → Except Failure (Option String × Bytes)
  | .failed reason => .error (.unreachable errand url reason)
  | .answered status entityTag body =>
    if status = .ofNat 200 then .ok (entityTag, body) else .error (.refused errand url status)

/-- The version that an answer to a probe reports. A tag that names none counts as no tag. -/
def version (url : String) (answer : Answer) : Except Failure (Option String) :=
  (accept .probe url answer).map fun (entityTag, _) =>
    (entityTag.map Fingerprint.ofEntityTag).filter (· ≠ "")

def versionNotices (url : String) (answer : Answer) : List Notice :=
  let outcome := version url answer
  outcomeNotice .archiveProbes outcome :: match outcome with
    | .ok none => [.log .warn "Archive probe returned no ETag"]
    | _ => []

def archive (url : String) (answer : Answer) : Except Failure Bytes :=
  (accept .download url answer).map (·.2)

def downloadNotices : List Notice := [.log .info "Downloading archive"]

def archiveNotices (url : String) (answer : Answer) : List Notice :=
  let outcome := archive url answer
  outcomeNotice .archiveDownloads outcome :: match outcome with
    | .ok _ => [.log .info "Downloaded archive"]
    | .error _ => []

end Publisher

end DomainRules
