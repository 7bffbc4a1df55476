import DomainRules.FileSlot
import DomainRules.Fingerprint
import DomainRules.Index
import DomainRules.Notice
import DomainRules.Text.Utf8
/-!
The catalog publishes the index. Under a public address the index is rebuilt when the archive
changes, and it may be kept in a file; without one it is built for whoever asks.
-/
namespace DomainRules

/-- An index with the version of the archive that it lists. -/
structure Catalog.Edition where
  fingerprint : Option String
  body : String
  deriving DecidableEq, Repr

structure Catalog where
  /-- The public address, without slashes at its end. -/
  base : Option String
  file : Option FileSlot
  edition : Option Catalog.Edition := none
  deriving DecidableEq, Repr

namespace Catalog

def ofAddress (address : Option String) (file : Option FileSlot) : Catalog where
  base := address.map fun text => String.ofList (Text.dropTrailingSlashes text.toList)
  file := file

def bodyOf (archive : Archive) (address : String) : String :=
  Index.render archive.names (address ++ "/geosite")

/-- Whether a refresh looks at the archive. -/
def isPublic (catalog : Catalog) : Bool := catalog.base.isSome

/-- Whether the index of a version is published: it is the version of the last one built, and if
there is to be a file, there is something at its path. As long as none is built the version is
missing. -/
def isCurrent (catalog : Catalog) (fingerprint : Option String) : Bool :=
  (catalog.edition.bind (·.fingerprint) = fingerprint) && catalog.file.all (·.isPresent)

/-- Brings the index up to date with an archive, replacing the file as the disk lets it. -/
def publish (replace : FileSlot.Writer) (catalog : Catalog) (base : String) (snapshot : Snapshot) :
    Catalog × Except Failure Unit × List Notice :=
  if catalog.isCurrent snapshot.fingerprint then (catalog, .ok (), [])
  else
    let body := bodyOf snapshot.archive base
    let next := { catalog with edition := some ⟨snapshot.fingerprint, body⟩ }
    let rebuilt : Notice := .log .info "Index rebuilt"
    match catalog.file with
    | none => (next, .ok (), [rebuilt])
    | some file => match replace file (Text.utf8 body.toList) with
      | (file, .error failure) => ({ next with file := some file }, .error failure, [rebuilt])
      | (file, .ok ()) =>
        ({ next with file := some file }, .ok (), [rebuilt, .log .info "Index saved"])

/-- Brings the index up to date with what the supply of archives gives, replacing the file as the
disk lets it. Without a public address there is nothing to do. -/
def refreshOn (replace : FileSlot.Writer) (catalog : Catalog) (source : Except Failure Snapshot) :
    Catalog × Except Failure Unit × List Notice :=
  match catalog.base, source with
  | none, _ => (catalog, .ok (), [])
  | some _, .error failure => (catalog, .error failure, [])
  | some base, .ok snapshot => publish replace catalog base snapshot

/-- Brings the index up to date on a disk with room for it. -/
def refresh (catalog : Catalog) (source : Except Failure Snapshot) :
    Catalog × Except Failure Unit × List Notice :=
  refreshOn FileSlot.replace catalog source

def filed? (catalog : Catalog) : Option String :=
  match catalog.file.map FileSlot.read with
  | some (.ok data) => some (String.ofList (Text.ofUtf8 data))
  | _ => none

/-- What looking for the file makes known. A file that is not there is no trouble. -/
def filedNotices (catalog : Catalog) : List Notice :=
  match catalog.file.map FileSlot.read with
  | some (.error .absent) => []
  | some (.error _) => [.log .warn "Failed to read index file"]
  | _ => []

/-- The index that is ready: the one in the file, or else the last one built. -/
def ready? (catalog : Catalog) : Option String :=
  match catalog.filed? with
  | some body => some body
  | none => catalog.edition.map (·.body)

/-- The index for someone who reached the server under an address. -/
def body (catalog : Catalog) (address : String) (source : Except Failure Snapshot) :
    Except Failure String :=
  match catalog.ready? with
  | some body => .ok body
  | none => source.map fun snapshot => bodyOf snapshot.archive address

end Catalog

end DomainRules
