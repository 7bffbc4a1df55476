import DomainRules.Memo.Store
import DomainRules.Notice
/-!
Memoised computations. A text that is not kept is computed once, however many callers ask for it:
those who ask while it is computed wait for the same computation.
-/
namespace DomainRules

/-- A computation that runs, with the caller who started it and those who joined it. -/
structure Memo.Computation (ι : Type) where
  key : String
  fingerprint : Option String
  owner : ι
  joined : List ι
  deriving DecidableEq, Repr

/-- The kept texts, and the computations that run. -/
structure Memo (ι : Type) where
  store : Memo.Store
  running : List (Memo.Computation ι) := []
  deriving DecidableEq, Repr

namespace Memo

inductive Answer where
  | kept (text : String)
  | joined
  | started
  deriving DecidableEq, Repr

def Answer.notices : Answer → List Notice
  | .joined => [.log .debug "Joining pending computation"]
  | _ => []

/-- The name of a computation: its version and its key on two lines. A version that is missing is
named as such. -/
def identity (key : String) (fingerprint : Option String) : String :=
  fingerprint.getD "undefined" ++ "\n" ++ key

namespace Computation

variable {ι : Type}

def identity (c : Computation ι) : String := Memo.identity c.key c.fingerprint

/-- Everyone who waits for the computation, in the order of their calls. -/
def callers (c : Computation ι) : List ι := c.owner :: c.joined

end Computation

variable {ι : Type}

def join (caller : ι) (name : String) : List (Computation ι) → List (Computation ι)
  | [] => []
  | c :: running =>
    if c.identity = name then { c with joined := c.joined ++ [caller] } :: running
    else c :: join caller name running

/-- A caller asks for the text under a key, made from a version. -/
def call (memo : Memo ι) (now : Number) (caller : ι) (key : String)
    (fingerprint : Option String) :
    Memo ι × Answer :=
  let name := identity key fingerprint
  match memo.store.get now key fingerprint with
  | (store, some text) => ({ memo with store }, .kept text)
  | (store, none) =>
    if memo.running.any (·.identity = name) then
      ({ store, running := join caller name memo.running }, .joined)
    else
      let c : Computation ι := { key, fingerprint, owner := caller, joined := [] }
      ({ store, running := memo.running ++ [c] }, .started)

/-- A computation ends. Its text is kept if there is one, and nobody can join it any more. -/
def finish (memo : Memo ι) (now : Number) (c : Computation ι) (outcome : Except Failure String) :
    Memo ι :=
  let store := match outcome with
    | .ok text => memo.store.set now c.key text c.fingerprint
    | .error _ => memo.store
  { store, running := memo.running.filter (·.identity ≠ c.identity) }

def set (memo : Memo ι) (now : Number) (key text : String) (fingerprint : Option String) :
    Memo ι :=
  { memo with store := memo.store.set now key text fingerprint }

def sweep (memo : Memo ι) (now : Number) : Memo ι := { memo with store := memo.store.sweep now }

def sweepNotices (memo : Memo ι) (now : Number) : List Notice :=
  if memo.store.sweptCount now = 0 then [] else [.log .debug "Swept expired results"]

end Memo

end DomainRules
