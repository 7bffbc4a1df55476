import DomainRules.Failure
/-!
Work that reads lists, with the trace of what it reads. Several readings may run at once, and then
they take turns; the trace says where a turn ends.
-/
namespace DomainRules

inductive Step where
  | read (member : String)
  /-- Other readings may go on. -/
  | turn
  deriving DecidableEq, Repr

/-- The outcome of some work and the steps that led to it. -/
structure Reading (α : Type) where
  steps : List Step
  result : Except Failure α

namespace Reading

def done (a : α) : Reading α := { steps := [], result := .ok a }

/-- The steps come before the work. -/
def after (steps : List Step) (work : Reading α) : Reading α :=
  { work with steps := steps ++ work.steps }

/-- The steps come behind the work, whether it succeeded or not. -/
def before (steps : List Step) (work : Reading α) : Reading α :=
  { work with steps := work.steps ++ steps }

def map (f : α → β) (work : Reading α) : Reading β :=
  { steps := work.steps, result := work.result.map f }

def bind (work : Reading α) (next : α → Reading β) : Reading β :=
  match work.result with
  | .ok a => (next a).after work.steps
  | .error failure => { steps := work.steps, result := .error failure }

def reads (work : Reading α) : List String :=
  work.steps.filterMap fun
    | .read member => some member
    | .turn => none

end Reading

def turnsOf : List Step → List (List String)
  | [] => [[]]
  | .turn :: steps => [] :: turnsOf steps
  | .read member :: steps => match turnsOf steps with
    | [] => [[member]]
    | reads :: turns => (member :: reads) :: turns

/-- The members that several traces read when they take turns: in each turn, those of the first
trace come first. -/
def interleave (traces : List (List Step)) : List String :=
  let turns := traces.map turnsOf
  let last := (turns.map List.length).foldl max 0
  (List.range last).flatMap fun i => turns.flatMap fun reads => (reads[i]?).getD []

end DomainRules
