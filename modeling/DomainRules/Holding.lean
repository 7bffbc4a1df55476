import DomainRules.FileSlot
import DomainRules.Fingerprint
import DomainRules.MessagePack.Reader
import DomainRules.Notice
import DomainRules.Zip
/-!
The archive that the server holds. Bytes, lists, version and age are always those of one archive:
they are replaced together or not at all. The last archive may be kept in a file, from which it
comes back after a restart.
-/
namespace DomainRules

structure Stored where
  data : Bytes
  fingerprint : String
  since : Number
  deriving DecidableEq, Repr

namespace Stored

def pack (s : Stored) : Bytes :=
  0x83 :: (Packed.packText "data" ++ Packed.packBytes s.data ++
    Packed.packText "fingerprint" ++ Packed.packText s.fingerprint ++
    Packed.packText "timestamp" ++ Packed.packNumber s.since)

/-- The most bytes of a record. Lengths within it are numbers of at most 32 bits. -/
def longest : Nat := 0x100000000

/-- The snapshot that a packed value is. It has to have all three fields, each of its type, and the
version must not be empty. -/
def ofPacked? (value : Packed) : Option Stored :=
  match value.field? "data", value.field? "fingerprint", value.field? "timestamp" with
  | some (.bytes data), some (.text fingerprint), some (.number since) =>
    if fingerprint = "" then none else some { data, fingerprint, since }
  | _, _, _ => none

def unpack? (bytes : Bytes) : Option Stored := (Packed.ofBytes? bytes).bind ofPacked?

end Stored

structure Held where
  data : Bytes
  archive : Archive
  fingerprint : String
  /-- When it was last known to be current. -/
  since : Number
  deriving DecidableEq, Repr

/-- The archive and the version, without the bytes. -/
def Held.snapshot (h : Held) : Snapshot := ⟨h.archive, some h.fingerprint⟩

structure Holding where
  /-- How long an archive counts as current, in milliseconds. -/
  lifetime : Number
  /-- The directory of the lists within the archive. -/
  directory : String
  file : FileSlot
  isPersistent : Bool := false
  held : Option Held := none
  deriving DecidableEq, Repr

namespace Holding

def isStale (holding : Holding) (now : Number) (h : Held) : Bool :=
  holding.lifetime.lt (now.sub h.since)

def current? (holding : Holding) (now : Number) : Option Snapshot :=
  match holding.held with
  | some h => if holding.isStale now h then none else some h.snapshot
  | none => none

/-- The snapshot, current or not. -/
def snapshot? (holding : Holding) : Option Snapshot := holding.held.map Held.snapshot

def fingerprint? (holding : Holding) : Option String := holding.held.map (·.fingerprint)

/-- The archive is known to be current. -/
def touch (holding : Holding) (now : Number) : Holding :=
  { holding with held := holding.held.map fun h => { h with since := now } }

def sizeNotice (data : Bytes) : Notice := .gauge .archiveSize data.length

/-- Stores a snapshot, unless its record would be too long. If that fails no draft stays behind. -/
def store (file : FileSlot) (s : Stored) : FileSlot × Except Failure Unit :=
  if s.pack.length ≤ Stored.longest then
    match file.replace s.pack with
    | (file, .error failure) => (file.dropDraft, .error failure)
    | (file, .ok ()) => (file, .ok ())
  else
    match file.ensureDirectory with
    | .error fault => (file, .error (.disk fault))
    | .ok file => (file.dropDraft, .error .excessiveRecord)

/-- Takes up a new archive. A failure to store it is only reported. -/
def set (holding : Holding) (now : Number) (data : Bytes) (fingerprint : String) :
    Holding × Except Failure Snapshot × List Notice :=
  if fingerprint = "" then (holding, .error .emptyFingerprint, [])
  else match Archive.ofZip holding.directory data with
    | .error failure => (holding, .error failure, [])
    | .ok archive =>
      let h : Held := { data, archive, fingerprint, since := now }
      let next := { holding with held := some h }
      if !holding.isPersistent then (next, .ok h.snapshot, [sizeNotice data])
      else match store holding.file { data, fingerprint, since := h.since } with
        | (file, .ok ()) => ({ next with file }, .ok h.snapshot, [sizeNotice data])
        | (file, .error _) =>
          ({ next with file }, .ok h.snapshot,
            [sizeNotice data, .tick .persistErrors,
              .log .error "Failed to persist archive snapshot"])

/-- The archive that a file holds, if there is such a file. -/
def stored (directory : String) (file : FileSlot) : Except Failure (Option Held) :=
  match file.read with
  | .error .absent => .ok none
  | .error fault => .error (.disk fault)
  | .ok bytes => match Stored.unpack? bytes with
    | none => .error .invalidSnapshot
    | some s => match Archive.ofZip directory s.data with
      | .error failure => .error failure
      | .ok archive =>
        .ok (some { data := s.data, archive, fingerprint := s.fingerprint, since := s.since })

/-- Brings the stored archive back, and stores new ones from now on. The result says whether there
was one. -/
def load (holding : Holding) : Holding × Except Failure Bool × List Notice :=
  let holding := { holding with isPersistent := true }
  match stored holding.directory holding.file with
  | .error failure => (holding, .error failure, [])
  | .ok none => (holding, .ok false, [])
  | .ok (some h) =>
    ({ holding with held := some h }, .ok true,
      [sizeNotice h.data, .log .info "Loaded archive snapshot"])

end Holding

end DomainRules
