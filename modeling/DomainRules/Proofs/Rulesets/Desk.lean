import DomainRules.Rulesets

/-!
The desk at which lists are asked for. Every call first waits for a snapshot and then for its text,
and calls, snapshots, ends of computations and sweeps come in any order and at any time.
-/
namespace DomainRules

namespace Rulesets

/-- The text of a computation that succeeds is kept. Until the computation is closed, others can
still join it. -/
def keep (rulesets : Rulesets) (now : Number) (c : Memo.Computation RulesetCall) : Rulesets :=
  match c.owner.text with
  | .ok text => rulesets.set now c.key text c.fingerprint
  | .error _ => rulesets

def close (rulesets : Rulesets) (c : Memo.Computation RulesetCall) : Rulesets :=
  { rulesets with running := rulesets.running.filter (·.identity ≠ c.identity) }

theorem finish_eq (rulesets : Rulesets) (now : Number) (c : Memo.Computation RulesetCall) :
    rulesets.finish now c = (rulesets.keep now c).close c := by
  unfold finish keep Memo.finish
  cases c.owner.text <;> rfl

end Rulesets

/-- A call that got a snapshot, and how it ended. -/
structure Settlement where
  call : RulesetCall
  outcome : Except Failure String

structure Desk where
  rulesets : Rulesets
  /-- The number of calls so far, which is the number of the next one. -/
  count : Nat := 0
  waiting : List (Nat × Request) := []
  settled : List Settlement := []
  denied : List (Nat × Failure) := []

namespace Desk

inductive Event where
  | ask (segment : String) (dialect : Dialect)
  | supply (now : Number) (number : Nat) (archive : Archive) (fingerprint : String)
  | deny (number : Nat) (failure : Failure)
  /-- The computation of a name has its text, or its failure. -/
  | keep (now : Number) (name : String)
  /-- The computation of a name ends for all who wait for it. -/
  | close (name : String)
  | sweep (now : Number)

def Event.request? : Event → Option Request
  | .ask segment dialect => some { selection := .ofSegment segment, dialect }
  | _ => none

def opened (lifetime bound : Nat) : Desk := { rulesets := { store := { lifetime, bound } } }

def ask (desk : Desk) (request : Request) : Desk :=
  { desk with count := desk.count + 1, waiting := desk.waiting ++ [(desk.count, request)] }

def unwaiting (desk : Desk) (number : Nat) : List (Nat × Request) :=
  desk.waiting.filter (·.1 ≠ number)

/-- A call that waits gets a snapshot. It settles at once if its text is kept. -/
def supply (desk : Desk) (now : Number) (number : Nat) (archive : Archive)
    (fingerprint : String) : Desk :=
  match desk.waiting.lookup number with
  | none => desk
  | some request =>
    let call : RulesetCall := { number, request, archive }
    let (rulesets, answer) := desk.rulesets.begin now (some fingerprint) call
    let settled := match answer with
      | .kept text => desk.settled ++ [{ call, outcome := .ok text }]
      | _ => desk.settled
    { desk with rulesets, settled, waiting := desk.unwaiting number }

def deny (desk : Desk) (number : Nat) (failure : Failure) : Desk :=
  if (desk.waiting.lookup number).isSome then
    { desk with
        denied := desk.denied ++ [(number, failure)]
        waiting := desk.unwaiting number }
  else desk

theorem mem_waiting_of_lookup {desk : Desk} {number : Nat} {request : Request}
    (h : desk.waiting.lookup number = some request) : (number, request) ∈ desk.waiting := by
  obtain ⟨before, behind, he, _⟩ := List.lookup_eq_some_iff.mp h
  rw [he]
  exact List.mem_append_right _ List.mem_cons_self

def running? (desk : Desk) (name : String) : Option (Memo.Computation RulesetCall) :=
  desk.rulesets.running.find? (·.identity = name)

def keep (desk : Desk) (now : Number) (name : String) : Desk :=
  match desk.running? name with
  | none => desk
  | some c => { desk with rulesets := desk.rulesets.keep now c }

/-- The computation of a name ends, and all who wait for it settle with what its owner computed. -/
def close (desk : Desk) (name : String) : Desk :=
  match desk.running? name with
  | none => desk
  | some c =>
    { desk with
        rulesets := desk.rulesets.close c
        settled := desk.settled ++ c.callers.map fun call => { call, outcome := c.owner.text } }

def step (desk : Desk) : Event → Desk
  | .ask segment dialect => desk.ask { selection := .ofSegment segment, dialect }
  | .supply now number archive fingerprint => desk.supply now number archive fingerprint
  | .deny number failure => desk.deny number failure
  | .keep now name => desk.keep now name
  | .close name => desk.close name
  | .sweep now => { desk with rulesets := desk.rulesets.sweep now }

def run (desk : Desk) (events : List Event) : Desk := events.foldl step desk

theorem run_concat (desk : Desk) (events : List Event) (event : Event) :
    desk.run (events ++ [event]) = (desk.run events).step event := by
  rw [run, List.foldl_append]
  rfl

theorem run_append (desk : Desk) (earlier later : List Event) :
    desk.run (earlier ++ later) = (desk.run earlier).run later := List.foldl_append

end Desk

end DomainRules
