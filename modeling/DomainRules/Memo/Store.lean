import DomainRules.Failure
import DomainRules.Number.Basic
/-!
Kept texts: a map with an expiry and a bound. A text is kept with the version it was made from, it
expires when it gets too old, and when there is no room the one that was used least recently goes.
-/
namespace DomainRules.Memo

structure Kept where
  key : String
  text : String
  /-- The version, unless it has none. -/
  fingerprint : Option String
  since : Number
  deriving DecidableEq, Repr

/-- The kept texts, the least recently used first. -/
structure Store where
  /-- The greatest age of a text, or zero if texts do not expire. -/
  lifetime : Nat
  /-- The greatest number of texts, or zero if there may be any number. -/
  bound : Nat
  kept : List Kept := []
  deriving DecidableEq, Repr

namespace Store

/-- The greatest natural number up to which all are binary64 numbers. -/
def exactLimit : Nat := Number.twoTo 53 - 1

/-- The empty store with the given limits. Both have to be natural numbers, the bound has to be one
of 32 bits, and one of the two has to be positive. -/
def ofLimits (lifetime bound : Number) : Except Failure Store :=
  match bound.toNat? with
  | none => .error .invalidBound
  | some n =>
    if exactLimit < n then .error (.inexactBound bound)
    else if Number.twoTo 32 ≤ n then .error .excessiveBound
    else match lifetime.toNat? with
      | none => .error .invalidLifetime
      | some lifetime =>
        if n = 0 ∧ lifetime = 0 then .error .unlimited else .ok { lifetime, bound := n }

def size (store : Store) : Nat := store.kept.length

/-- Whether a text is too old. One that was stored at the time zero never is. -/
def isExpired (store : Store) (now : Number) (k : Kept) : Bool :=
  store.lifetime ≠ 0 && k.since ≠ .finite 0 &&
    (Number.ofNat store.lifetime).lt (now.sub k.since)

/-- The text under a key, whether it is too old or not. -/
def find? (store : Store) (key : String) : Option Kept := store.kept.find? (·.key = key)

def erase (store : Store) (key : String) : Store :=
  { store with kept := store.kept.filter (·.key ≠ key) }

/-- The store with one more text, which counts as used last. -/
def push (store : Store) (k : Kept) : Store := { store with kept := store.kept ++ [k] }

/-- Asks for the text that was made under a key from a version. Asking counts as use, whatever the
version, and a text that is too old is dropped. -/
def get (store : Store) (now : Number) (key : String) (fingerprint : Option String) :
    Store × Option String :=
  match store.find? key with
  | none => (store, none)
  | some k =>
    if store.isExpired now k then (store.erase key, none)
    else ((store.erase key).push k, if k.fingerprint = fingerprint then some k.text else none)

/-- The store with room for one more text. -/
def makeRoom (store : Store) : Store :=
  if store.bound ≠ 0 ∧ store.bound ≤ store.size then { store with kept := store.kept.drop 1 }
  else store

/-- Stores a text. The one that was under the key goes; else room is made for the new one. -/
def set (store : Store) (now : Number) (key text : String) (fingerprint : Option String) :
    Store :=
  let cleared := match store.find? key with
    | some _ => store.erase key
    | none => store.makeRoom
  cleared.push { key, text, fingerprint, since := now }

def sweep (store : Store) (now : Number) : Store :=
  { store with kept := store.kept.filter fun k => !store.isExpired now k }

def sweptCount (store : Store) (now : Number) : Nat := store.size - (store.sweep now).size

end Store

end DomainRules.Memo
