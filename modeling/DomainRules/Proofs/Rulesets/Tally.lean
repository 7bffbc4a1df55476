import DomainRules.Proofs.Metrics.Totals
import DomainRules.Proofs.Rulesets.Ledger
import Mathlib.Data.List.Induction

namespace DomainRules

/-- The metrics that calls are counted in: the hits, the misses and the failures. -/
def Metric.isAccount : Metric → Bool
  | .cacheHits | .cacheMisses | .renderErrors => true
  | _ => false

def Notice.isAccount (notice : Notice) : Bool := notice.metric?.any Metric.isAccount

/-- A call that waits for a computation: no text was kept for it. -/
def Visit.ofWaiter (call : RulesetCall) : Visit := { call, found? := none }

namespace Receipt

/-- How a call is counted. -/
def account (r : Receipt) : Notice :=
  match r.ending with
  | .found _ => .count .cacheHits r.call.request.dialect.label 1
  | .waited (.ok _) => .count .cacheMisses r.call.request.dialect.label 1
  | .waited (.error failure) => .count .renderErrors failure.label 1

/-- The call was fulfilled with a text that was kept. -/
def isHit (r : Receipt) : Bool :=
  match r.ending with
  | .found _ => true
  | _ => false

/-- The call was fulfilled with a text that was computed. -/
def isMiss (r : Receipt) : Bool :=
  match r.ending with
  | .waited (.ok _) => true
  | _ => false

def failure? (r : Receipt) : Option Failure :=
  match r.ending.outcome with
  | .ok _ => none
  | .error failure => some failure

theorem exists_account_eq (r : Receipt) :
    ∃ metric label, r.account = .count metric label 1 := by
  obtain ⟨call, ending⟩ := r
  rcases ending with text | failure | text <;> exact ⟨_, _, rfl⟩

theorem filter_notices (r : Receipt) : r.notices.filter Notice.isAccount = [r.account] := by
  obtain ⟨call, ending⟩ := r
  rcases ending with text | failure | text <;> rfl

end Receipt

theorem Memo.Answer.filter_notices (answer : Memo.Answer) :
    answer.notices.filter Notice.isAccount = [] := by
  cases answer <;> rfl

theorem Memo.filter_sweepNotices (rulesets : Rulesets) (now : Number) :
    (rulesets.sweepNotices now).filter Notice.isAccount = [] := by
  unfold Memo.sweepNotices
  split <;> rfl

/-- Rendering counts the rules that it refuses, and nothing else. -/
theorem filter_renderNotices (dialect : Dialect) (items : List Item) :
    (renderNotices dialect items).filter Notice.isAccount = [] := by
  rw [List.filter_eq_nil_iff]
  cases dialect with
  | surge =>
    intro notice hn
    obtain ⟨rule, -, hrule⟩ := List.mem_filterMap.mp hn
    obtain ⟨refusal, -, rfl⟩ := Option.map_eq_some_iff.mp hrule
    exact Bool.false_ne_true
  | mihomo => exact fun _ hn => nomatch hn
  | egern => exact fun _ hn => nomatch hn

theorem RulesetCall.filter_computeNotices (call : RulesetCall) :
    call.computeNotices.filter Notice.isAccount = [] := by
  unfold RulesetCall.computeNotices
  split
  · rw [List.filter_append, filter_renderNotices]
    rfl
  · rfl

namespace Ledger

variable {l : Ledger}

/-- What carries over from event to event. -/
structure Tallied (l : Ledger) : Prop where
  asked : l.asked.length = l.desk.count
  waiting : ∀ w ∈ l.desk.waiting, l.asked[w.1]? = some w.2
  requests : ∀ v ∈ l.visits, l.asked[v.call.number]? = some v.call.request
  names : (l.desk.rulesets.running.map (·.identity)).Nodup
  calls : (l.visits.map (·.call.number) ++ l.desk.denied.map (·.1) ++
    l.desk.waiting.map (·.1)).Perm (List.range l.desk.count)
  visits : ((l.returned ++ l.due).map Receipt.visit ++
    l.desk.rulesets.waiters.map Visit.ofWaiter).Perm l.visits
  settled : ((l.returned ++ l.due).map Receipt.settlement).Perm l.desk.settled
  accounts : l.told.filter Notice.isAccount = l.returned.map Receipt.account

theorem Tallied.idle {rulesets : Rulesets} (h : rulesets.running = []) :
    Tallied { desk := { rulesets } } where
  asked := rfl
  waiting _ hw := nomatch hw
  requests _ hv := nomatch hv
  names := by
    rw [h]
    exact .nil
  calls := .nil
  visits := by
    rw [Memo.waiters, h]
    exact .nil
  settled := .nil
  accounts := rfl

theorem Tallied.waiting_numbers (h : Tallied l) : (l.desk.waiting.map (·.1)).Nodup :=
  (List.nodup_append.mp (h.calls.nodup_iff.mpr List.nodup_range)).2.1

theorem Tallied.visit_numbers (h : Tallied l) : (l.visits.map (·.call.number)).Nodup := by
  have hboth := (List.nodup_append.mp (h.calls.nodup_iff.mpr List.nodup_range)).1
  exact (List.nodup_append.mp hboth).1

theorem Tallied.receipt_numbers (h : Tallied l) :
    ((l.returned ++ l.due).map (·.call.number)).Nodup := by
  have hnumbers := (h.visits.map (·.call.number)).nodup_iff.mpr h.visit_numbers
  rw [List.map_append, List.map_map] at hnumbers
  exact (List.nodup_append.mp hnumbers).1

theorem Tallied.waiting_perm (h : Tallied l) {number : Nat} {request : Request}
    (hlookup : l.desk.waiting.lookup number = some request) :
    (l.desk.waiting.map (·.1)).Perm (number :: (l.desk.unwaiting number).map (·.1)) :=
  (Keyed.perm_cons_filter h.waiting_numbers (Desk.mem_waiting_of_lookup hlookup)).map (·.1)

theorem getElem?_concat_of_some {requests : List Request} {number : Nat} {request other : Request}
    (h : requests[number]? = some request) : (requests ++ [other])[number]? = some request := by
  obtain ⟨hn, -⟩ := List.getElem?_eq_some_iff.mp h
  rw [List.getElem?_append_left hn, h]

theorem Tallied.requests_concat (h : Tallied l) {v : Visit} {number : Nat} {request : Request}
    (hlookup : l.desk.waiting.lookup number = some request) (hnumber : v.call.number = number)
    (hrequest : v.call.request = request) :
    ∀ w ∈ l.visits ++ [v], l.asked[w.call.number]? = some w.call.request := by
  intro w hw
  rcases List.mem_append.mp hw with hw | hw
  · exact h.requests w hw
  · rw [List.mem_singleton.mp hw, hnumber, hrequest]
    exact h.waiting _ (Desk.mem_waiting_of_lookup hlookup)

theorem Tallied.waiting_of_unwaiting (h : Tallied l) {number : Nat} :
    ∀ w ∈ l.desk.unwaiting number, l.asked[w.1]? = some w.2 :=
  fun w hw => h.waiting w (List.mem_filter.mp hw).1

theorem Tallied.ask (h : Tallied l) (request : Request) :
    Tallied { l with desk := l.desk.ask request, asked := l.asked ++ [request] } :=
  { h with
    asked := by
      rw [List.length_append, h.asked]
      rfl
    waiting := by
      intro w hw
      rcases List.mem_append.mp hw with hw | hw
      · exact getElem?_concat_of_some (h.waiting w hw)
      · rw [List.mem_singleton.mp hw, ← h.asked]
        exact List.getElem?_concat_length
    requests := fun v hv => getElem?_concat_of_some (h.requests v hv)
    calls := by
      have hwaiting : (l.desk.ask request).waiting.map (·.1) =
          l.desk.waiting.map (·.1) ++ [l.desk.count] := List.map_append
      have hcount : (l.desk.ask request).count = l.desk.count + 1 := rfl
      dsimp only
      rw [hwaiting, hcount, List.range_succ, ← List.append_assoc]
      exact h.calls.append_right [l.desk.count] }

open scoped List in
theorem calls_perm {visited denied waiting left : List Nat} {number count : Nat}
    (hcalls : (visited ++ denied ++ waiting).Perm (List.range count))
    (hwaiting : waiting.Perm (number :: left)) :
    (visited ++ [number] ++ denied ++ left).Perm (List.range count) := by
  calc
    visited ++ [number] ++ denied ++ left
    _ = visited ++ (number :: (denied ++ left)) := by simp
    _ ~ visited ++ (denied ++ number :: left) := List.perm_middle.symm.append_left visited
    _ = visited ++ denied ++ (number :: left) := by simp
    _ ~ visited ++ denied ++ waiting := hwaiting.symm.append_left (visited ++ denied)
    _ ~ List.range count := hcalls

theorem Tallied.supply (h : Tallied l) (now : Number) (number : Nat) (archive : Archive)
    (fingerprint : String) : Tallied (l.supply now number archive fingerprint) := by
  have hsupplied := supplied_supply l now number archive fingerprint
  generalize l.supply now number archive fingerprint = next at hsupplied
  cases hsupplied with
  | missed => exact h
  | @found request call rulesets text hlookup hnumber hrequest hrunning =>
    have hwaiters : rulesets.waiters = l.desk.rulesets.waiters := by
      rw [Memo.waiters, hrunning]
      rfl
    exact { h with
      waiting := h.waiting_of_unwaiting
      requests := h.requests_concat hlookup hnumber hrequest
      names := by
        rw [hrunning]
        exact h.names
      calls := by
        rw [List.map_append, List.map_singleton, hnumber]
        exact calls_perm h.calls (h.waiting_perm hlookup)
      visits := by
        rw [hwaiters, ← List.append_assoc, List.map_append]
        -- The receipt stands before those who wait, and the visit behind all others.
        refine List.Perm.trans ?_ (h.visits.append_right _)
        rw [List.append_assoc, List.append_assoc]
        exact List.perm_append_comm.append_left _
      settled := by
        rw [← List.append_assoc, List.map_append]
        exact h.settled.append_right _ }
  | @waits request call rulesets answer hlookup hnumber hrequest hnames hwaiters =>
    exact { h with
      waiting := h.waiting_of_unwaiting
      requests := h.requests_concat hlookup hnumber hrequest
      names := hnames h.names
      calls := by
        rw [List.map_append, List.map_singleton, hnumber]
        exact calls_perm h.calls (h.waiting_perm hlookup)
      visits := by
        have hmap : (rulesets.waiters.map Visit.ofWaiter).Perm
            (l.desk.rulesets.waiters.map Visit.ofWaiter ++ [Visit.ofWaiter call]) := by
          rw [← List.map_singleton, ← List.map_append]
          exact hwaiters.map Visit.ofWaiter
        refine List.Perm.trans (hmap.append_left _) ?_
        rw [← List.append_assoc]
        exact h.visits.append_right _
      accounts := by
        rw [List.filter_append, Memo.Answer.filter_notices, List.append_nil]
        exact h.accounts }

theorem Tallied.deny (h : Tallied l) (number : Nat) (failure : Failure) :
    Tallied { l with desk := l.desk.deny number failure } := by
  unfold Desk.deny
  split
  · rename_i hsome
    obtain ⟨request, hlookup⟩ := Option.isSome_iff_exists.mp hsome
    exact { h with
      waiting := h.waiting_of_unwaiting
      calls := by
        dsimp only
        rw [List.map_append, List.map_singleton, ← List.append_assoc, List.append_assoc]
        exact ((h.waiting_perm hlookup).symm.append_left _).trans h.calls }
  · exact h

theorem Tallied.pass (h : Tallied l) {rulesets : Rulesets} {notices : List Notice}
    (hrunning : rulesets.running = l.desk.rulesets.running)
    (hnotices : notices.filter Notice.isAccount = []) :
    Tallied { l with desk := { l.desk with rulesets }, told := l.told ++ notices } :=
  { h with
    names := by
      rw [hrunning]
      exact h.names
    visits := by
      rw [Memo.waiters, hrunning]
      exact h.visits
    accounts := by
      rw [List.filter_append, hnotices, List.append_nil]
      exact h.accounts }

theorem Tallied.keep (h : Tallied l) (now : Number) (name : String) :
    Tallied (l.keep now name) := by
  unfold Ledger.keep
  split
  · exact h
  · rename_i c hc
    obtain ⟨rulesets, hrunning, hkeep⟩ := l.desk.exists_keep_eq now name
    rw [hkeep]
    exact h.pass hrunning c.owner.filter_computeNotices

theorem Tallied.close (h : Tallied l) (name : String) : Tallied (l.close name) := by
  unfold Ledger.close
  cases hrunning : l.desk.running? name with
  | none => exact h
  | some c =>
    have hmem : c ∈ l.desk.rulesets.running := List.mem_of_find?_eq_some hrunning
    have hclose : l.desk.close name = { l.desk with
        rulesets := l.desk.rulesets.close c
        settled := l.desk.settled ++ c.callers.map fun call =>
          { call, outcome := c.owner.text } } := by
      rw [Desk.close, hrunning]
    have hwaiters : (l.desk.rulesets.waiters.map Visit.ofWaiter).Perm
        (c.callers.map Visit.ofWaiter ++ (l.desk.rulesets.close c).waiters.map Visit.ofWaiter) := by
      rw [← List.map_append]
      exact (Memo.waiters_perm_of_mem h.names hmem).map Visit.ofWaiter
    have hvisits : (c.callers.map fun call => Receipt.mk call (.waited c.owner.text)).map
        Receipt.visit = c.callers.map Visit.ofWaiter := by
      rw [List.map_map]
      rfl
    have hsettled : (c.callers.map fun call => Receipt.mk call (.waited c.owner.text)).map
        Receipt.settlement = c.callers.map fun call => ⟨call, c.owner.text⟩ := by
      rw [List.map_map]
      rfl
    dsimp only
    rw [hclose]
    -- Those who waited for the computation are due, and all others wait as before.
    exact { h with
      names := h.names.sublist (List.filter_sublist.map _)
      visits := by
        rw [← List.append_assoc, List.map_append, hvisits, List.append_assoc]
        exact (hwaiters.symm.append_left _).trans h.visits
      settled := by
        rw [← List.append_assoc, List.map_append, hsettled]
        exact h.settled.append_right _ }

theorem Tallied.due_numbers (h : Tallied l) : (l.due.map (·.call.number)).Nodup := by
  have hall := h.receipt_numbers
  rw [List.map_append] at hall
  exact (List.nodup_append.mp hall).2.1

theorem Tallied.leave (h : Tallied l) (number : Nat) : Tallied (l.leave number) := by
  unfold Ledger.leave
  cases hfound : l.due.find? (·.call.number = number) with
  | none => exact h
  | some r =>
    have hr : r.call.number = number := by simpa using List.find?_some hfound
    -- The receipt moves from those that are due to those that returned.
    have hdue : (l.returned ++ [r] ++ l.due.filter (·.call.number ≠ number)).Perm
        (l.returned ++ l.due) := by
      have hout := Keyed.perm_cons_filter h.due_numbers (List.mem_of_find?_eq_some hfound)
      rw [hr] at hout
      rw [List.append_assoc]
      exact hout.symm.append_left l.returned
    exact { h with
      visits := ((hdue.map Receipt.visit).append_right _).trans h.visits
      settled := (hdue.map Receipt.settlement).trans h.settled
      accounts := by
        rw [List.filter_append, r.filter_notices, h.accounts, List.map_append, List.map_singleton] }

theorem Tallied.step (h : Tallied l) (event : Event) : Tallied (l.step event) := by
  cases event with
  | ask request => exact h.ask request
  | supply now number archive fingerprint => exact h.supply now number archive fingerprint
  | deny number failure => exact h.deny number failure
  | keep now name => exact h.keep now name
  | close name => exact h.close name
  | leave number => exact h.leave number
  | sweep now => exact h.pass rfl (Memo.filter_sweepNotices l.desk.rulesets now)

theorem Tallied.run (h : Tallied l) (events : List Event) : Tallied (l.run events) := by
  induction events using List.reverseRecOn with
  | nil => exact h
  | append_singleton events event ih =>
    rw [run_concat]
    exact ih.step event

end Ledger

end DomainRules
