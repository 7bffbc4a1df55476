import DomainRules.Failure
import DomainRules.Number.Reading

namespace DomainRules

abbrev Environment := List (String × String)

namespace Environment

/-- The text of a variable, unless it is blank. A variable ends at the first NUL. -/
def text? (env : Environment) (name : String) : Option String :=
  ((env.lookup name).map fun text => String.ofList (text.toList.takeWhile (·.toNat ≠ 0))).filter
    fun text => !(Text.trim text.toList).isEmpty

def text (env : Environment) (name fallback : String) : String := (env.text? name).getD fallback

def natural (env : Environment) (name : String) (fallback : Nat) : Except Failure Nat :=
  match env.text? name with
  | none => .ok fallback
  | some text => match (Number.ofText text.toList).toNat? with
    | some n => .ok n
    | none => .error (.notNatural name text)

end Environment

/-- The settings of the server. Intervals and lifetimes are in seconds, timeouts in milliseconds. -/
structure Settings where
  tcpPort : Nat
  /-- The public address, under which the index is published. -/
  publicUrl : Option String
  /-- The path of the file that holds the index. -/
  indexFile : Option String
  /-- Where the root of the server leads. -/
  homeUrl : String
  /-- Where hand-kept lists are fetched. -/
  extrasUrl : Option String
  extrasTimeout : Nat
  archiveUrl : String
  /-- The directory of the lists within the archive. -/
  archiveDirectory : String
  archiveLifetime : Nat
  archiveFile : Option String
  archiveInterval : Nat
  archiveTimeout : Nat
  answerLifetime : Nat
  answerLimit : Nat
  answerInterval : Nat
  deriving DecidableEq, Repr

namespace Settings

def withoutSlashes (text : String) : String := String.ofList (Text.dropTrailingSlashes text.toList)

def withoutBlanks (text : String) : String := String.ofList (Text.trim text.toList)

/-- The settings that the variables give. The first variable that is no natural number where one
is needed fails. -/
def ofEnvironment (env : Environment) : Except Failure Settings := do
  let tcpPort ← env.natural "PORT" 8080
  let extrasTimeout ← env.natural "MISC_REQUEST_TIMEOUT_MS" 30000
  let archiveLifetime ← env.natural "ARCHIVE_TTL_SECONDS" 1800
  let archiveInterval ← env.natural "ARCHIVE_REFRESH_INTERVAL_SECONDS" 1800
  let archiveTimeout ← env.natural "ARCHIVE_REQUEST_TIMEOUT_MS" 60000
  let answerLifetime ← env.natural "RESULT_CACHE_TTL_SECONDS" 86400
  let answerLimit ← env.natural "RESULT_CACHE_MAX_ENTRIES" 10000
  let answerInterval ← env.natural "RESULT_CACHE_SWEEP_INTERVAL_SECONDS" 600
  return {
    tcpPort
    publicUrl := (env.text? "BASE_URL").map fun text => withoutSlashes (withoutBlanks text)
    indexFile := (env.text? "INDEX_PATH").map withoutBlanks
    homeUrl := env.text "REPO_URL" "https://github.com/v2fly/domain-list-community"
    extrasUrl := (env.text? "MISC_BASE_URL").map withoutSlashes
    extrasTimeout
    archiveUrl := env.text "ARCHIVE_URL"
      "https://github.com/v2fly/domain-list-community/archive/refs/heads/master.zip"
    archiveDirectory := env.text "ARCHIVE_DATA_PREFIX" "domain-list-community-master/data/"
    archiveLifetime
    archiveFile := env.text? "ARCHIVE_CACHE_PATH"
    archiveInterval
    archiveTimeout
    answerLifetime
    answerLimit
    answerInterval }

end Settings

end DomainRules
