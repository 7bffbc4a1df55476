import DomainRules.Bytes
import DomainRules.Failure
/-!
A path at which one file is kept. A file is replaced by writing a draft beside it and then moving
the draft over it, so what is at the path is never half written.
-/
namespace DomainRules

/-- What is at a path whose directory exists. -/
inductive FileSlot.Entry where
  | nothing
  | file (data : Bytes)
  | directory
  deriving DecidableEq, Repr

inductive FileSlot.Site where
  /-- The directory of the path does not exist. -/
  | unmade
  /-- A regular file is where the directory of the path should be. -/
  | blocked
  /-- The directory exists. There may be a draft beside the path. -/
  | made (entry : FileSlot.Entry) (draft : Option Bytes)
  deriving DecidableEq, Repr

structure FileSlot where
  path : String
  site : FileSlot.Site := .made .nothing none
  deriving DecidableEq, Repr

namespace FileSlot

def draftPath (slot : FileSlot) : String := slot.path ++ ".tmp"

def read (slot : FileSlot) : Except DiskFault Bytes :=
  match slot.site with
  | .unmade => .error .absent
  | .blocked => .error .notDirectory
  | .made .nothing _ => .error .absent
  | .made (.file data) _ => .ok data
  | .made .directory _ => .error .isDirectory

/-- The bytes of the regular file at the path, if there is one. -/
def data? (slot : FileSlot) : Option Bytes :=
  match slot.site with
  | .made (.file data) _ => some data
  | _ => none

def isPresent (slot : FileSlot) : Bool :=
  match slot.site with
  | .made .nothing _ => false
  | .made _ _ => true
  | _ => false

def hasDraft (slot : FileSlot) : Bool :=
  match slot.site with
  | .made _ (some _) => true
  | _ => false

def dropDraft (slot : FileSlot) : FileSlot :=
  match slot.site with
  | .made entry _ => { slot with site := .made entry none }
  | _ => slot

/-- What is there once the directory of the path was made, unless something stands in its place. -/
def ensured (slot : FileSlot) : Except DiskFault (Entry × Option Bytes) :=
  match slot.site with
  | .unmade => .ok (.nothing, none)
  | .blocked => .error .exists
  | .made entry draft => .ok (entry, draft)

def ensureDirectory (slot : FileSlot) : Except DiskFault FileSlot :=
  match slot.ensured with
  | .error fault => .error fault
  | .ok (entry, draft) => .ok { slot with site := .made entry draft }

/-- A way to replace a file: the path then, and whether it went well. -/
abbrev Writer := FileSlot → Bytes → FileSlot × Except Failure Unit

/-- Replaces the file by way of a draft. If a directory is in the way, the draft stays. -/
def replace (slot : FileSlot) (data : Bytes) : FileSlot × Except Failure Unit :=
  match slot.ensured with
  | .error fault => (slot, .error (.disk fault))
  | .ok (.directory, _) =>
    ({ slot with site := .made .directory (some data) },
      .error (.overwritesDirectory slot.draftPath slot.path))
  | .ok (_, _) => ({ slot with site := .made (.file data) none }, .ok ())

-- No part of the server calls what follows: it is what others do to the path.

def write (slot : FileSlot) (data : Bytes) : Except DiskFault FileSlot :=
  match slot.ensured with
  | .error fault => .error fault
  | .ok (.directory, _) => .error .isDirectory
  | .ok (_, draft) => .ok { slot with site := .made (.file data) draft }

def remove (slot : FileSlot) : Except DiskFault FileSlot :=
  match slot.site with
  | .unmade => .ok slot
  | .blocked => .error .notDirectory
  | .made _ draft => .ok { slot with site := .made .nothing draft }

def makeDirectory (slot : FileSlot) : Except DiskFault FileSlot :=
  match slot.site with
  | .unmade => .ok { slot with site := .made .directory none }
  | .blocked => .error .notDirectory
  | .made (.file _) _ => .error .exists
  | .made _ draft => .ok { slot with site := .made .directory draft }

end FileSlot

end DomainRules
