import DomainRules.Holding
import DomainRules.Sha256
/-!
The supply of archives. Callers get the archive that is held while it is current. Otherwise the
publisher is probed, and the archive is downloaded if its version is another one; this is a
refresh, and all who call while it runs wait for the same one.
-/
namespace DomainRules

inductive Supply.Phase (ι : Type) where
  | idle
  /-- The answer to a probe. The snapshot is the one that was held when the refresh began. -/
  | probing (before : Option Snapshot) (callers : List ι)
  /-- The answer to a download. The version is the one that the probe reported, if any. -/
  | downloading (before : Option Snapshot) (reported : Option String) (callers : List ι)
  deriving DecidableEq, Repr

structure Supply (ι : Type) where
  holding : Holding
  phase : Supply.Phase ι := .idle
  deriving DecidableEq, Repr

namespace Supply

inductive Answer where
  | held (snapshot : Snapshot)
  | joined
  | started
  deriving DecidableEq, Repr

/-- What an answer of the publisher leads to. -/
inductive Progress (ι : Type) where
  /-- Nothing waited for it. -/
  | ignored
  | downloads
  | ended (callers : List ι) (outcome : Except Failure Snapshot)

variable {ι : Type}

/-- A caller asks for a refresh, whether the archive is current or not. -/
def force (supply : Supply ι) (caller : ι) : Supply ι × Answer :=
  match supply.phase with
  | .idle =>
    ({ supply with phase := .probing supply.holding.snapshot? [caller] }, .started)
  | .probing before callers =>
    ({ supply with phase := .probing before (callers ++ [caller]) }, .joined)
  | .downloading before reported callers =>
    ({ supply with phase := .downloading before reported (callers ++ [caller]) }, .joined)

def ensure (supply : Supply ι) (now : Number) (caller : ι) : Supply ι × Answer :=
  match supply.holding.current? now with
  | some snapshot => (supply, .held snapshot)
  | none => supply.force caller

/-- The answer to a probe arrives. An archive that is held serves on if the probe failed, and is
current again if its version was reported; else the archive is downloaded. -/
def probed (supply : Supply ι) (now : Number) (answer : Except Failure (Option String)) :
    Supply ι × Progress ι × List Notice :=
  match supply.phase with
  | .probing before callers => match answer, before with
    | .error _, some snapshot =>
      ({ supply with phase := .idle }, .ended callers (.ok snapshot),
        [.tick .staleArchives, .log .warn "Archive probe failed, serving cached archive"])
    | .error failure, none => ({ supply with phase := .idle }, .ended callers (.error failure), [])
    | .ok reported, some snapshot =>
      if reported.isSome && reported = snapshot.fingerprint then
        ({ holding := supply.holding.touch now, phase := .idle }, .ended callers (.ok snapshot),
          [.log .debug "Archive unchanged upstream"])
      else ({ supply with phase := .downloading before reported callers }, .downloads, [])
    | .ok reported, none =>
      ({ supply with phase := .downloading before reported callers }, .downloads, [])
  | _ => (supply, .ignored, [])

/-- The version of some bytes: the reported one, or else their digest. -/
def versionOf (reported : Option String) (data : Bytes) : String :=
  match reported with
  | some fingerprint => fingerprint
  | none => Sha256.hex data

def downloaded (supply : Supply ι) (now : Number) (answer : Except Failure Bytes) :
    Supply ι × Progress ι × List Notice :=
  match supply.phase with
  | .downloading _ reported callers => match answer with
    | .error failure => ({ supply with phase := .idle }, .ended callers (.error failure), [])
    | .ok data => match supply.holding.set now data (versionOf reported data) with
      | (holding, .error failure, notices) =>
        ({ holding, phase := .idle }, .ended callers (.error failure), notices)
      | (holding, .ok snapshot, notices) =>
        ({ holding, phase := .idle }, .ended callers (.ok snapshot),
          notices ++ [.log .info "Archive updated"])
  | _ => (supply, .ignored, [])

end Supply

end DomainRules
