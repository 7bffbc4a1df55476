import DomainRules.Metrics
import DomainRules.Proofs.Memo.Waiters
import DomainRules.Proofs.Rulesets.Desk

/-!
The ledger of the desk. A call that got a snapshot does not return at once when its text is there,
or when the computation it waits for has ended, but at any time from then on. As it returns it is
made known how it ended.
-/
namespace DomainRules

inductive Ending where
  /-- It found its text, and waited for nothing. -/
  | found (text : String)
  /-- It waited for a computation. -/
  | waited (outcome : Except Failure String)

namespace Ending

def found? : Ending → Option String
  | .found text => some text
  | .waited _ => none

def outcome : Ending → Except Failure String
  | .found text => .ok text
  | .waited outcome => outcome

end Ending

/-- A call that got a snapshot, with the text that was kept for it at that time. -/
structure Visit where
  call : RulesetCall
  found? : Option String

structure Receipt where
  call : RulesetCall
  ending : Ending

namespace Receipt

def visit (r : Receipt) : Visit := { call := r.call, found? := r.ending.found? }

def settlement (r : Receipt) : Settlement := { call := r.call, outcome := r.ending.outcome }

def notices (r : Receipt) : List Notice :=
  match r.ending with
  | .found _ => r.call.keptNotices
  | .waited outcome => r.call.settleNotices outcome

end Receipt

structure Ledger where
  desk : Desk
  /-- The requests of all calls. The number of a call is its place here. -/
  asked : List Request := []
  visits : List Visit := []
  /-- The calls whose ending is known and which have not returned. -/
  due : List Receipt := []
  returned : List Receipt := []
  told : List Notice := []

theorem Desk.exists_keep_eq (desk : Desk) (now : Number) (name : String) :
    ∃ rulesets : Rulesets, rulesets.running = desk.rulesets.running ∧
      desk.keep now name = { desk with rulesets } := by
  unfold Desk.keep
  split
  · exact ⟨desk.rulesets, rfl, rfl⟩
  · rename_i c hc
    refine ⟨desk.rulesets.keep now c, ?_, rfl⟩
    unfold Rulesets.keep
    split <;> rfl

namespace Ledger

inductive Event where
  | ask (request : Request)
  | supply (now : Number) (number : Nat) (archive : Archive) (fingerprint : String)
  | deny (number : Nat) (failure : Failure)
  | keep (now : Number) (name : String)
  | close (name : String)
  /-- The call of a number returns, if its ending is known. -/
  | leave (number : Nat)
  | sweep (now : Number)

def opened (lifetime bound : Nat) : Ledger := { desk := .opened lifetime bound }

def metrics (l : Ledger) : Metrics := ({} : Metrics).noteAll l.told

/-- A call that waits gets a snapshot. Its ending is known at once if its text is kept. -/
def supply (l : Ledger) (now : Number) (number : Nat) (archive : Archive) (fingerprint : String) :
    Ledger :=
  match l.desk.waiting.lookup number with
  | none => l
  | some request =>
    let call : RulesetCall := { number, request, archive }
    let found? := (l.desk.rulesets.store.get now request.key (some fingerprint)).2
    let answer := (l.desk.rulesets.begin now (some fingerprint) call).2
    { l with
        desk := l.desk.supply now number archive fingerprint
        visits := l.visits ++ [{ call, found? }]
        due := match answer with
          | .kept text => l.due ++ [{ call, ending := .found text }]
          | _ => l.due
        told := l.told ++ answer.notices }

def keep (l : Ledger) (now : Number) (name : String) : Ledger :=
  match l.desk.running? name with
  | none => l
  | some c => { l with
      desk := l.desk.keep now name
      told := l.told ++ c.owner.computeNotices }

/-- A computation ends, and so does every call that waits for it. -/
def close (l : Ledger) (name : String) : Ledger :=
  match l.desk.running? name with
  | none => l
  | some c => { l with
      desk := l.desk.close name
      due := l.due ++ c.callers.map fun call => { call, ending := .waited c.owner.text } }

def leave (l : Ledger) (number : Nat) : Ledger :=
  match l.due.find? (·.call.number = number) with
  | none => l
  | some r => { l with
      due := l.due.filter (·.call.number ≠ number)
      returned := l.returned ++ [r]
      told := l.told ++ r.notices }

def step (l : Ledger) : Event → Ledger
  | .ask request => { l with desk := l.desk.ask request, asked := l.asked ++ [request] }
  | .supply now number archive fingerprint => l.supply now number archive fingerprint
  | .deny number failure => { l with desk := l.desk.deny number failure }
  | .keep now name => l.keep now name
  | .close name => l.close name
  | .leave number => l.leave number
  | .sweep now => { l with
      desk := { l.desk with rulesets := l.desk.rulesets.sweep now }
      told := l.told ++ l.desk.rulesets.sweepNotices now }

def run (l : Ledger) (events : List Event) : Ledger := events.foldl step l

theorem run_concat (l : Ledger) (events : List Event) (event : Event) :
    l.run (events ++ [event]) = (l.run events).step event := by
  rw [run, List.foldl_append]
  rfl

/-- What happens at the desk, as the ledger sees it. -/
def Event.ofDesk : Desk.Event → Event
  | .ask segment dialect => .ask { selection := .ofSegment segment, dialect }
  | .supply now number archive fingerprint => .supply now number archive fingerprint
  | .deny number failure => .deny number failure
  | .keep now name => .keep now name
  | .close name => .close name
  | .sweep now => .sweep now

def Event.isReturn : Event → Bool
  | .leave _ => true
  | _ => false

theorem desk_step_of_isReturn (l : Ledger) {event : Event} (h : event.isReturn = true) :
    (l.step event).desk = l.desk := by
  cases event with
  | leave number =>
    rw [step, leave]
    split <;> rfl
  | _ => cases h

theorem desk_step_ofDesk (l : Ledger) (event : Desk.Event) :
    (l.step (.ofDesk event)).desk = l.desk.step event := by
  cases event with
  | ask segment dialect => rfl
  | deny number failure => rfl
  | sweep now => rfl
  | supply now number archive fingerprint =>
    rw [Event.ofDesk, step, supply]
    split
    · rename_i hnone
      rw [Desk.step, Desk.supply, hnone]
    · rfl
  | keep now name =>
    rw [Event.ofDesk, step, keep]
    split
    · rename_i hnone
      rw [Desk.step, Desk.keep, hnone]
    · rfl
  | close name =>
    rw [Event.ofDesk, step, close]
    split
    · rename_i hnone
      rw [Desk.step, Desk.close, hnone]
    · rfl

/-- The desk of a ledger goes its own way, whenever the calls return. -/
theorem desk_run (l : Ledger) {events : List Event} {atDesk : List Desk.Event}
    (h : events.filter (!·.isReturn) = atDesk.map .ofDesk) :
    (l.run events).desk = l.desk.run atDesk := by
  induction events generalizing l atDesk with
  | nil =>
    obtain rfl := List.map_eq_nil_iff.mp h.symm
    rfl
  | cons event events ih =>
    have hrun : l.run (event :: events) = (l.step event).run events := rfl
    rw [hrun]
    cases hreturn : event.isReturn with
    | true =>
      rw [List.filter_cons_of_neg (by simp [hreturn])] at h
      rw [ih _ h, desk_step_of_isReturn l hreturn]
    | false =>
      rw [List.filter_cons_of_pos (by simp [hreturn])] at h
      obtain ⟨first, later, rfl, rfl, hlater⟩ := List.map_eq_cons_iff.mp h.symm
      rw [ih _ hlater.symm, desk_step_ofDesk]
      rfl

inductive Supplied (l : Ledger) (number : Nat) : Ledger → Prop where
  /-- No call of the number waits for one. -/
  | missed : Supplied l number l
  | found {request : Request} {call : RulesetCall} {rulesets : Rulesets} {text : String}
    (hlookup : l.desk.waiting.lookup number = some request) (hnumber : call.number = number)
    (hrequest : call.request = request) (hrunning : rulesets.running = l.desk.rulesets.running) :
    Supplied l number { l with
      desk := { l.desk with
        rulesets
        settled := l.desk.settled ++ [{ call, outcome := .ok text }]
        waiting := l.desk.unwaiting number }
      visits := l.visits ++ [{ call, found? := some text }]
      due := l.due ++ [{ call, ending := .found text }] }
  | waits {request : Request} {call : RulesetCall} {rulesets : Rulesets} {answer : Memo.Answer}
    (hlookup : l.desk.waiting.lookup number = some request) (hnumber : call.number = number)
    (hrequest : call.request = request)
    (hnames : (l.desk.rulesets.running.map (·.identity)).Nodup →
      (rulesets.running.map (·.identity)).Nodup)
    (hwaiters : rulesets.waiters.Perm (l.desk.rulesets.waiters ++ [call])) :
    Supplied l number { l with
      desk := { l.desk with rulesets, waiting := l.desk.unwaiting number }
      visits := l.visits ++ [{ call, found? := none }]
      told := l.told ++ answer.notices }

theorem supplied_supply (l : Ledger) (now : Number) (number : Nat) (archive : Archive)
    (fingerprint : String) : Supplied l number (l.supply now number archive fingerprint) := by
  unfold supply
  cases hlookup : l.desk.waiting.lookup number with
  | none => exact .missed
  | some request =>
    let call : RulesetCall := { number, request, archive }
    let begun := l.desk.rulesets.begin now (some fingerprint) call
    have hdesk : l.desk.supply now number archive fingerprint =
        { l.desk with
          rulesets := begun.1
          settled := match begun.2 with
            | .kept text => l.desk.settled ++ [{ call, outcome := .ok text }]
            | _ => l.desk.settled
          waiting := l.desk.unwaiting number } := by
      unfold Desk.supply
      split
      · rename_i hnone
        cases hlookup.symm.trans hnone
      · rename_i other hother
        cases hlookup.symm.trans hother
        rfl
    dsimp only
    rw [hdesk]
    -- A call that finds no text waits, whether it started the computation or not.
    rcases Memo.call_finds_or_waits l.desk.rulesets now call request.key (some fingerprint) with
      ⟨text, hget, hanswer, hrunning⟩ | ⟨hget, hanswer, hwaiters⟩
    · have hbegun : begun.2 = .kept text := hanswer
      rw [hget, hbegun]
      dsimp only [Memo.Answer.notices]
      rw [List.append_nil]
      exact .found hlookup rfl rfl hrunning
    · have hbegun : ∀ text, begun.2 ≠ .kept text := hanswer
      have hnames (h : (l.desk.rulesets.running.map (·.identity)).Nodup) :
          (begun.1.running.map (·.identity)).Nodup :=
        Memo.names_call h now call request.key (some fingerprint)
      rw [hget]
      cases hanswer : begun.2 with
      | kept text => exact absurd hanswer (hbegun text)
      | joined => exact .waits hlookup rfl rfl hnames hwaiters
      | started => exact .waits hlookup rfl rfl hnames hwaiters

end Ledger

end DomainRules
