import DomainRules.Expansion
import DomainRules.Fingerprint
import DomainRules.Memo
import DomainRules.Rendering

namespace DomainRules

/-- A request for a list of a snapshot; the number tells apart equal requests. -/
structure RulesetCall where
  number : Nat
  request : Request
  archive : Archive
  deriving DecidableEq, Repr

namespace RulesetCall

def items (call : RulesetCall) : Reading (List Item) :=
  expandMember call.archive call.request.selection.filter call.request.selection.name

def text (call : RulesetCall) : Except Failure String :=
  call.items.result.map (render call.request.dialect)

def turns (call : RulesetCall) : Nat := call.items.steps.count .turn

def computeNotices (call : RulesetCall) : List Notice :=
  match call.items.result with
  | .ok items => renderNotices call.request.dialect items ++ [.log .info "Generated ruleset"]
  | .error _ => []

def keptNotices (call : RulesetCall) : List Notice :=
  [.count .cacheHits call.request.dialect.label 1, .log .debug "Ruleset cache hit"]

/-- What the end of a computation makes known for one of those who waited. -/
def settleNotices (call : RulesetCall) : Except Failure String → List Notice
  | .ok _ => [.count .cacheMisses call.request.dialect.label 1]
  | .error failure => [.count .renderErrors failure.label 1]

end RulesetCall

abbrev Rulesets := Memo RulesetCall

namespace Rulesets

def begin (rulesets : Rulesets) (now : Number) (fingerprint : Option String) (call : RulesetCall) :
    Rulesets × Memo.Answer :=
  rulesets.call now call call.request.key fingerprint

/-- A computation ends with the text that its owner asked for. -/
def finish (rulesets : Rulesets) (now : Number) (c : Memo.Computation RulesetCall) : Rulesets :=
  Memo.finish rulesets now c c.owner.text

def finishNotices (c : Memo.Computation RulesetCall) : List Notice :=
  c.owner.computeNotices ++ c.callers.flatMap fun call => call.settleNotices c.owner.text

/-- Calls that arrive one after the other before any computation ends. -/
def beginAll (rulesets : Rulesets) (now : Number) (fingerprint : Option String) :
    List RulesetCall → Rulesets × List Memo.Answer
  | [] => (rulesets, [])
  | call :: calls =>
    let (rulesets, answer) := rulesets.begin now fingerprint call
    let (rulesets, answers) := beginAll rulesets now fingerprint calls
    (rulesets, answer :: answers)

/-- The computations in the order in which they end: one that takes fewer turns ends earlier. -/
def endOrder (running : List (Memo.Computation RulesetCall)) :
    List (Memo.Computation RulesetCall) :=
  running.mergeSort fun a b => a.owner.turns ≤ b.owner.turns

/-- A call that nobody answers fails. There is none: whoever finds no text waits for a
computation. -/
def unanswered : Except Failure String := .error (.thrown "unanswered")

/-- What a call comes to once it was told what it leads to and the computations have ended. -/
def outcomeOf (ending : List (Memo.Computation RulesetCall)) (call : RulesetCall) :
    Memo.Answer → Except Failure String
  | .kept text => .ok text
  | _ => match ending.find? (·.callers.contains call) with
    | some c => c.owner.text
    | none => unanswered

structure Batch where
  rulesets : Rulesets
  results : List (Except Failure String)
  reads : List String
  notices : List Notice

/-- The calls of requests that arrive together, numbered in their order. -/
def callsOf (archive : Archive) (requests : List Request) : List RulesetCall :=
  requests.zipIdx.map fun (request, number) => { number, request, archive }

/-- Answers requests that arrive together and for which the source gives one snapshot. -/
def answer (rulesets : Rulesets) (now : Number) (snapshot : Snapshot) (requests : List Request) :
    Batch :=
  let calls := callsOf snapshot.archive requests
  let (begun, answers) := rulesets.beginAll now snapshot.fingerprint calls
  let ending := endOrder begun.running
  { rulesets := ending.foldl (fun rulesets c => rulesets.finish now c) begun
    results := (calls.zip answers).map fun (call, answer) => outcomeOf ending call answer
    reads := interleave (begun.running.map (·.owner.items.steps))
    notices := answers.flatMap (·.notices) ++
      ((calls.zip answers).flatMap fun (call, answer) => match answer with
        | .kept _ => call.keptNotices
        | _ => []) ++
      ending.flatMap finishNotices }

def answerOne (rulesets : Rulesets) (now : Number) (snapshot : Snapshot) (request : Request) :
    Rulesets × Except Failure String × List Notice :=
  let batch := rulesets.answer now snapshot [request]
  (batch.rulesets, batch.results.headD unanswered, batch.notices)

end Rulesets

end DomainRules
