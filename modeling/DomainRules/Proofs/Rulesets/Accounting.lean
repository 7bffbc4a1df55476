import DomainRules.Proofs.Rulesets.Key
import DomainRules.Proofs.Rulesets.Tally

namespace DomainRules

namespace Receipt

theorem account_eq_hit_iff (r : Receipt) (dialect : Dialect) :
    r.account = .count .cacheHits dialect.label 1 ↔
      r.call.request.dialect = dialect ∧ r.isHit = true := by
  obtain ⟨call, ending⟩ := r
  rcases ending with text | failure | text
  · constructor
    · intro h
      exact ⟨Dialect.label_injective (Notice.count.inj h).2.1, rfl⟩
    · rintro ⟨rfl, -⟩
      rfl
  · exact iff_of_false (fun h => nomatch h) fun h => Bool.false_ne_true h.2
  · exact iff_of_false (fun h => nomatch h) fun h => Bool.false_ne_true h.2

theorem account_eq_miss_iff (r : Receipt) (dialect : Dialect) :
    r.account = .count .cacheMisses dialect.label 1 ↔
      r.call.request.dialect = dialect ∧ r.isMiss = true := by
  obtain ⟨call, ending⟩ := r
  rcases ending with text | failure | text
  · exact iff_of_false (fun h => nomatch h) fun h => Bool.false_ne_true h.2
  · exact iff_of_false (fun h => nomatch h) fun h => Bool.false_ne_true h.2
  · constructor
    · intro h
      exact ⟨Dialect.label_injective (Notice.count.inj h).2.1, rfl⟩
    · rintro ⟨rfl, -⟩
      rfl

theorem account_eq_failure_iff (r : Receipt) (label : String) :
    r.account = .count .renderErrors label 1 ↔ r.failure?.any (·.label = label) = true := by
  obtain ⟨call, ending⟩ := r
  rcases ending with text | failure | text
  · exact iff_of_false (fun h => nomatch h) Bool.false_ne_true
  · constructor
    · intro h
      exact decide_eq_true (Notice.count.inj h).2.1
    · intro h
      have hlabel : failure.label = label := of_decide_eq_true h
      rw [← hlabel]
      rfl
  · exact iff_of_false (fun h => nomatch h) Bool.false_ne_true

theorem countP_accounts (receipts : List Receipt) :
    receipts.countP (fun r => r.account.metric? = some .cacheHits) +
      receipts.countP (fun r => r.account.metric? = some .cacheMisses) +
      receipts.countP (fun r => r.account.metric? = some .renderErrors) = receipts.length := by
  induction receipts with
  | nil => rfl
  | cons r receipts ih =>
    rw [List.countP_cons, List.countP_cons, List.countP_cons, List.length_cons, ← ih]
    obtain ⟨call, ending⟩ := r
    rcases ending with text | failure | text
    all_goals
      simp only [account, Notice.metric?, Option.some.injEq, reduceCtorEq, decide_true,
        decide_false, Bool.false_eq_true, if_true, if_false]
      omega

theorem kinds (r : Receipt) :
    (r.isHit = true ↔ ∃ text, r.visit.found? = some text ∧ r.ending.outcome = .ok text) ∧
      (r.isMiss = true ↔ r.visit.found? = none ∧ ∃ text, r.ending.outcome = .ok text) ∧
      ∀ failure, r.failure? = some failure ↔ r.ending.outcome = .error failure := by
  obtain ⟨call, ending⟩ := r
  rcases ending with text | failure | text <;>
    simp [isHit, isMiss, failure?, visit, Ending.found?,
      Ending.outcome]

end Receipt

namespace Ledger

variable {l : Ledger}

section Metrics

variable {metric : Metric}

theorem isAccount_of_metric? (hmetric : metric.isAccount = true) {notice : Notice}
    (h : notice.metric? = some metric) : notice.isAccount = true := by
  rw [Notice.isAccount, h]
  exact hmetric

theorem isSome_labelName? (hmetric : metric.isAccount = true) :
    metric.labelName?.isSome = true := by
  cases metric <;> first | rfl | cases hmetric

theorem Tallied.ticksOnly (h : Tallied l) (hmetric : metric.isAccount = true) :
    Metrics.TicksOnly metric l.told := by
  intro notice hn hnotice
  have hmem : notice ∈ l.told.filter Notice.isAccount :=
    List.mem_filter.mpr ⟨hn, isAccount_of_metric? hmetric hnotice⟩
  rw [h.accounts] at hmem
  obtain ⟨r, -, rfl⟩ := List.mem_map.mp hmem
  obtain ⟨counted, label, hr⟩ := r.exists_account_eq
  rw [hr] at hnotice ⊢
  cases hnotice
  exact ⟨label, rfl⟩

theorem Tallied.value_eq (h : Tallied l) (hmetric : metric.isAccount = true) (label : String) :
    l.metrics.value metric label =
      l.returned.countP fun r => r.account == .count metric label 1 := by
  have haccount : (Notice.count metric label 1).isAccount = true :=
    isAccount_of_metric? hmetric rfl
  calc
    l.metrics.value metric label
    _ = ({} : Metrics).value metric label + l.told.count (.count metric label 1) :=
      Metrics.value_noteAll (h.ticksOnly hmetric)
    _ = l.told.count (.count metric label 1) := Nat.zero_add _
    _ = (l.returned.map Receipt.account).count (.count metric label 1) := by
      rw [← h.accounts, List.count_filter haccount]
    _ = l.returned.countP fun r => r.account == .count metric label 1 := List.countP_map

theorem Tallied.total_eq (h : Tallied l) (hmetric : metric.isAccount = true) :
    l.metrics.total metric = l.returned.countP fun r => r.account.metric? = some metric := by
  have hfilter : l.told.countP (·.metric? = some metric) =
      (l.told.filter Notice.isAccount).countP (·.metric? = some metric) := by
    -- What is about one of the three metrics is an account, so the others need not be looked at.
    rw [List.countP_filter]
    apply List.countP_congr
    intro notice _
    simp only [decide_eq_true_eq, Bool.and_eq_true]
    exact ⟨fun hn => ⟨hn, isAccount_of_metric? hmetric hn⟩, And.left⟩
  have hempty : ({} : Metrics).total metric = 0 := by
    rw [Metrics.total_eq_sumOf (isSome_labelName? hmetric)]
    rfl
  calc
    l.metrics.total metric
    _ = ({} : Metrics).total metric + l.told.countP (·.metric? = some metric) :=
      Metrics.total_noteAll (isSome_labelName? hmetric) .nil (h.ticksOnly hmetric)
    _ = (l.returned.map Receipt.account).countP (·.metric? = some metric) := by
      rw [hempty, Nat.zero_add, hfilter, h.accounts]
    _ = l.returned.countP fun r => r.account.metric? = some metric := List.countP_map

end Metrics

theorem Tallied.returned_leave (h : Tallied l) {r : Receipt} (hr : r ∈ l.due) :
    (l.step (.leave r.call.number)).returned = l.returned ++ [r] := by
  have hfind : l.due.find? (·.call.number = r.call.number) = some r :=
    Keyed.find?_eq_some h.due_numbers hr
  rw [Ledger.step, Ledger.leave, hfind]

theorem Tallied.due_close (h : Tallied l) {c : Memo.Computation RulesetCall}
    (hc : c ∈ l.desk.rulesets.running) :
    (l.step (.close c.identity)).due =
      l.due ++ c.callers.map fun call => { call, ending := .waited c.owner.text } := by
  have hrunning : l.desk.running? c.identity = some c :=
    Keyed.find?_eq_some h.names hc
  rw [Ledger.step, Ledger.close, hrunning]

/-- The accounts of a desk are exact. -/
structure Balanced (l : Ledger) : Prop where
  /-- A call that got a snapshot is one for the request that was made under its number. -/
  requests : ∀ v ∈ l.visits, l.asked[v.call.number]? = some v.call.request
  /-- Every call waits for a snapshot, or there was none for it, or it got one. -/
  calls : (l.visits.map (·.call.number) ++ l.desk.denied.map (·.1) ++
    l.desk.waiting.map (·.1)).Perm (List.range l.desk.count)
  /-- A call that got a snapshot has returned, or it is about to, or it waits for a computation. It
  found a text exactly if one was kept as it got the snapshot. -/
  visits : ((l.returned ++ l.due).map Receipt.visit ++
    l.desk.rulesets.waiters.map Visit.ofWaiter).Perm l.visits
  /-- Whoever waits for a computation is due as it ends, and whoever is due can return. -/
  closes : ∀ c ∈ l.desk.rulesets.running, (l.step (.close c.identity)).due =
    l.due ++ c.callers.map fun call => { call, ending := .waited c.owner.text }
  leaves : ∀ r ∈ l.due, (l.step (.leave r.call.number)).returned = l.returned ++ [r]
  /-- The endings are those of the calls at the desk. -/
  settled : ((l.returned ++ l.due).map Receipt.settlement).Perm l.desk.settled
  /-- No call returns twice, and none for which there was no snapshot. -/
  once : (l.returned.map (·.call.number) ++ l.desk.denied.map (·.1)).Nodup
  /-- All that is ever counted is one account for each call that returned. -/
  accounts : l.told.filter Notice.isAccount = l.returned.map Receipt.account
  /-- A hit was fulfilled with a text that was kept, a miss was fulfilled in another way, and all
  others were rejected. -/
  kinds : ∀ r ∈ l.returned, ∃ v ∈ l.visits, v.call = r.call ∧
    (r.isHit = true ↔ ∃ text, v.found? = some text ∧ r.ending.outcome = .ok text) ∧
    (r.isMiss = true ↔ v.found? = none ∧ ∃ text, r.ending.outcome = .ok text) ∧
    ∀ failure, r.failure? = some failure ↔ r.ending.outcome = .error failure
  hits : ∀ dialect, l.metrics.value .cacheHits dialect.label =
    l.returned.countP fun r => r.call.request.dialect = dialect && r.isHit
  misses : ∀ dialect, l.metrics.value .cacheMisses dialect.label =
    l.returned.countP fun r => r.call.request.dialect = dialect && r.isMiss
  failures : ∀ label, l.metrics.value .renderErrors label =
    l.returned.countP fun r => r.failure?.any (·.label = label)
  /-- The three counters add up to the number of calls that returned. -/
  total : l.metrics.total .cacheHits + l.metrics.total .cacheMisses +
    l.metrics.total .renderErrors = l.returned.length

theorem Tallied.balanced (h : Tallied l) : Balanced l where
  requests := h.requests
  calls := h.calls
  visits := h.visits
  closes _ hc := h.due_close hc
  leaves _ hr := h.returned_leave hr
  settled := h.settled
  once := by
    have hcalls : (l.visits.map (·.call.number) ++ l.desk.denied.map (·.1)).Nodup :=
      (List.nodup_append.mp (h.calls.nodup_iff.mpr List.nodup_range)).1
    -- The calls that returned are some of those that got a snapshot.
    have hvisits := h.visits.map (·.call.number)
    rw [List.map_append, List.map_map, List.map_append, List.append_assoc] at hvisits
    have hall := (hvisits.append_right (l.desk.denied.map (·.1))).nodup_iff.mpr hcalls
    exact hall.sublist ((List.sublist_append_left _ _).append_right _)
  accounts := h.accounts
  kinds := by
    intro r hr
    have hmem : r.visit ∈ l.visits := by
      apply h.visits.subset
      apply List.mem_append_left
      exact List.mem_map_of_mem (List.mem_append_left _ hr)
    exact ⟨r.visit, hmem, rfl, r.kinds⟩
  hits dialect := by
    rw [h.value_eq rfl]
    apply List.countP_congr
    intro r _
    rw [beq_iff_eq, Receipt.account_eq_hit_iff, Bool.and_eq_true, decide_eq_true_iff]
  misses dialect := by
    rw [h.value_eq rfl]
    apply List.countP_congr
    intro r _
    rw [beq_iff_eq, Receipt.account_eq_miss_iff, Bool.and_eq_true, decide_eq_true_iff]
  failures label := by
    rw [h.value_eq rfl]
    apply List.countP_congr
    intro r _
    rw [beq_iff_eq, Receipt.account_eq_failure_iff]
  total := by
    rw [h.total_eq rfl, h.total_eq rfl, h.total_eq rfl]
    exact Receipt.countP_accounts l.returned

/-- Whatever happens at the desk, and in whatever order, its accounts are exact. -/
theorem balanced_run (lifetime bound : Nat) (events : List Event) :
    Balanced ((Ledger.opened lifetime bound).run events) :=
  ((Tallied.idle rfl).run events).balanced

end Ledger

end DomainRules
