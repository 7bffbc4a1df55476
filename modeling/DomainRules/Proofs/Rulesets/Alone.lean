import DomainRules.Proofs.Rulesets.Tally

namespace DomainRules

variable {rulesets : Rulesets} {store : Memo.Store} {now : Number} {archive : Archive}
  {fingerprint : String} {request : Request} {text : String}

namespace Rulesets

def soleCall (number : Nat) (archive : Archive) (request : Request) : RulesetCall :=
  { number, request, archive }

def soleComputation (number : Nat) (archive : Archive) (request : Request) (fingerprint : String) :
    Memo.Computation RulesetCall :=
  { key := request.key, fingerprint := some fingerprint, owner := soleCall number archive request
    joined := [] }

/-- The only call finds its text, or it starts the only computation, whatever its number is. -/
theorem begin_idle (hidle : rulesets.running = []) (now : Number) (fingerprint : String)
    (archive : Archive) (request : Request) :
    (∃ store text, ∀ number,
      rulesets.begin now (some fingerprint) (soleCall number archive request) =
        ({ store }, .kept text)) ∨
    ∃ store, ∀ number, rulesets.begin now (some fingerprint) (soleCall number archive request) =
      ({ store, running := [soleComputation number archive request fingerprint] }, .started) := by
  have hbegin (number : Nat) : rulesets.begin now (some fingerprint)
      (soleCall number archive request) =
        rulesets.call now (soleCall number archive request) request.key (some fingerprint) := rfl
  simp only [hbegin, Memo.call, hidle]
  rcases rulesets.store.get now request.key (some fingerprint) with ⟨store, none | text⟩
  · exact .inr ⟨store, fun _ => rfl⟩
  · exact .inl ⟨store, text, fun _ => rfl⟩

theorem answerOne_of_kept
    (h : rulesets.begin now (some fingerprint) (soleCall 0 archive request) =
      ({ store }, .kept text)) :
    rulesets.answerOne now ⟨archive, some fingerprint⟩ request =
      ({ store }, .ok text, (soleCall 0 archive request).keptNotices) := by
  unfold soleCall at h
  simp only [answerOne, answer, callsOf, List.zipIdx_cons, List.zipIdx_nil, List.map_cons,
    List.map_nil, beginAll, List.zip_cons_cons, List.zip_nil_right]
  rw [h]
  simp [endOrder, outcomeOf, Memo.Answer.notices, soleCall]

theorem answerOne_of_started
    (h : rulesets.begin now (some fingerprint) (soleCall 0 archive request) =
      ({ store, running := [soleComputation 0 archive request fingerprint] }, .started)) :
    rulesets.answerOne now ⟨archive, some fingerprint⟩ request =
      (Rulesets.finish { store, running := [soleComputation 0 archive request fingerprint] } now
        (soleComputation 0 archive request fingerprint), (soleCall 0 archive request).text,
        finishNotices (soleComputation 0 archive request fingerprint)) := by
  unfold soleCall at h
  simp only [answerOne, answer, callsOf, List.zipIdx_cons, List.zipIdx_nil, List.map_cons,
    List.map_nil, beginAll, List.zip_cons_cons, List.zip_nil_right]
  rw [h]
  simp [endOrder, outcomeOf, Memo.Answer.notices, soleCall, soleComputation,
    Memo.Computation.callers]

def storeAfter (store : Memo.Store) (now : Number) (c : Memo.Computation RulesetCall) :
    Memo.Store :=
  match c.owner.text with
  | .ok text => store.set now c.key text c.fingerprint
  | .error _ => store

theorem identity_sole (number : Nat) (archive : Archive) (request : Request)
    (fingerprint : String) :
    (soleComputation number archive request fingerprint).identity =
      Memo.identity request.key (some fingerprint) := rfl

theorem text_soleCall (number : Nat) (archive : Archive) (request : Request) :
    (soleCall number archive request).text = (soleCall 0 archive request).text := rfl

theorem storeAfter_sole (number : Nat) (store : Memo.Store) (now : Number) (archive : Archive)
    (request : Request) (fingerprint : String) :
    storeAfter store now (soleComputation number archive request fingerprint) =
      storeAfter store now (soleComputation 0 archive request fingerprint) := rfl

theorem keep_sole (store : Memo.Store) (now : Number) (c : Memo.Computation RulesetCall) :
    Rulesets.keep { store, running := [c] } now c =
      { store := storeAfter store now c, running := [c] } := by
  unfold Rulesets.keep storeAfter
  cases c.owner.text <;> rfl

theorem close_sole (store : Memo.Store) (c : Memo.Computation RulesetCall) :
    Rulesets.close { store, running := [c] } c = { store } := by
  unfold Rulesets.close
  simp

theorem finish_sole (store : Memo.Store) (now : Number) (c : Memo.Computation RulesetCall) :
    Rulesets.finish { store, running := [c] } now c = { store := storeAfter store now c } := by
  rw [finish_eq, keep_sole, close_sole]

end Rulesets

namespace Desk

open Rulesets

/-- What happens at the desk when a request is made and answered while no other one is. -/
def aloneEvents (desk : Desk) (now : Number) (archive : Archive) (fingerprint segment : String)
    (dialect : Dialect) : List Event :=
  let request : Request := { selection := .ofSegment segment, dialect }
  let name := Memo.identity request.key (some fingerprint)
  [.ask segment dialect, .supply now desk.count archive fingerprint, .keep now name, .close name]

/-- Answering a request while no computation runs is a run of the desk. -/
theorem run_alone {desk : Desk} (hidle : desk.rulesets.running = []) (hw : desk.waiting = [])
    (now : Number) (archive : Archive) (fingerprint segment : String) (dialect : Dialect) :
    let request : Request := { selection := .ofSegment segment, dialect }
    let answered := desk.rulesets.answerOne now ⟨archive, some fingerprint⟩ request
    let next := desk.run (desk.aloneEvents now archive fingerprint segment dialect)
    next.rulesets = answered.1 ∧ next.rulesets.running = [] ∧ next.waiting = [] ∧
      next.settled = desk.settled ++ [⟨soleCall desk.count archive request, answered.2.1⟩] := by
  intro request answered next
  let call := soleCall desk.count archive request
  let asked : Desk := { desk with count := desk.count + 1, waiting := [(desk.count, request)] }
  have hasked : desk.step (.ask segment dialect) = asked := by
    simp only [step, ask, hw, List.nil_append, asked, request]
  have hlookup : asked.waiting.lookup desk.count = some request := by simp [asked]
  have hunwaiting : asked.unwaiting desk.count = [] := by simp [asked, unwaiting]
  have hrulesets : asked.rulesets = desk.rulesets := rfl
  -- With no computation under way the call finds its text or starts the only one, and the other
  -- events of the run act on that one or on nothing.
  rcases begin_idle hidle now fingerprint archive request with ⟨store, text, h⟩ | ⟨store, h⟩
  · let found : Desk := { desk with
      rulesets := { store }
      count := desk.count + 1
      settled := desk.settled ++ [⟨call, .ok text⟩]
      waiting := [] }
    have hsupplied : asked.step (.supply now desk.count archive fingerprint) = found := by
      have hbegun := h desk.count
      unfold soleCall at hbegun
      simp only [step, supply, hlookup, hrulesets, hbegun, hunwaiting]
      rfl
    have hnext : next = found := by
      simp only [next, run, aloneEvents, List.foldl_cons, List.foldl_nil, hasked, hsupplied]
      rfl
    have hanswered : answered = ({ store }, .ok text, _) := answerOne_of_kept (h 0)
    rw [hnext, hanswered]
    exact ⟨rfl, rfl, rfl, rfl⟩
  · let c := soleComputation desk.count archive request fingerprint
    let name := Memo.identity request.key (some fingerprint)
    let begun : Desk := { desk with
      rulesets := { store, running := [c] }
      count := desk.count + 1
      waiting := [] }
    let kept : Desk := { begun with
      rulesets := { store := storeAfter store now c, running := [c] } }
    let closed : Desk := { begun with
      rulesets := { store := storeAfter store now c }
      settled := desk.settled ++ [⟨call, call.text⟩] }
    have hname : decide (c.identity = name) = true :=
      decide_eq_true (identity_sole desk.count archive request fingerprint)
    have hbegun : asked.step (.supply now desk.count archive fingerprint) = begun := by
      have hsole := h desk.count
      unfold soleCall at hsole
      simp only [step, supply, hlookup, hrulesets, hsole, hunwaiting]
      rfl
    have hkept : begun.step (.keep now name) = kept := by
      simp only [step, keep, running?, begun, List.find?_cons, hname, keep_sole]
      rfl
    have hclosed : kept.step (.close name) = closed := by
      simp only [step, close, running?, kept, begun, List.find?_cons, hname, close_sole]
      rfl
    have hnext : next = closed := by
      simp only [next, run, aloneEvents, List.foldl_cons, List.foldl_nil]
      rw [hasked, hbegun, hkept, hclosed]
    have hanswered := answerOne_of_started (h 0)
    rw [finish_sole, ← storeAfter_sole desk.count, ← text_soleCall desk.count] at hanswered
    rw [hnext, show answered = _ from hanswered]
    exact ⟨rfl, rfl, rfl, rfl⟩

end Desk

namespace Ledger

open Rulesets

/-- The ledger of a request that is answered alone, from the call to its return. -/
def alone (rulesets : Rulesets) (now : Number) (archive : Archive) (fingerprint : String)
    (request : Request) : Ledger :=
  let name := Memo.identity request.key (some fingerprint)
  ({ desk := { rulesets } } : Ledger).run
    [.ask request, .supply now 0 archive fingerprint, .keep now name, .close name, .leave 0]

theorem alone_of_kept (h : rulesets.begin now (some fingerprint) (soleCall 0 archive request) =
      ({ store }, .kept text)) :
    ∃ asked visits, alone rulesets now archive fingerprint request =
      { desk := { rulesets := { store }, count := 1
                  settled := [⟨soleCall 0 archive request, .ok text⟩] }
        asked
        visits
        returned := [⟨soleCall 0 archive request, .found text⟩]
        told := (soleCall 0 archive request).keptNotices } := by
  let call := soleCall 0 archive request
  let found? := (rulesets.store.get now request.key (some fingerprint)).2
  have hsupplied : (({ desk := { rulesets } } : Ledger).step (.ask request)).step
        (.supply now 0 archive fingerprint) =
      { desk := { rulesets := { store }, count := 1, settled := [⟨call, .ok text⟩] }
        asked := [request]
        visits := [⟨call, found?⟩]
        due := [⟨call, .found text⟩] } := by
    unfold soleCall at h
    simp [step, Desk.ask, supply, Desk.supply, h, Desk.unwaiting, Memo.Answer.notices, call, found?,
      soleCall]
  refine ⟨[request], [⟨call, found?⟩], ?_⟩
  simp only [alone, run, List.foldl_cons, List.foldl_nil]
  rw [hsupplied]
  rfl

theorem alone_of_started (h : rulesets.begin now (some fingerprint) (soleCall 0 archive request) =
      ({ store, running := [soleComputation 0 archive request fingerprint] }, .started)) :
    ∃ asked visits, alone rulesets now archive fingerprint request =
      { desk := { rulesets := Rulesets.finish
                    { store, running := [soleComputation 0 archive request fingerprint] } now
                    (soleComputation 0 archive request fingerprint)
                  count := 1
                  settled := [⟨soleCall 0 archive request, (soleCall 0 archive request).text⟩] }
        asked
        visits
        returned := [⟨soleCall 0 archive request, .waited (soleCall 0 archive request).text⟩]
        told := finishNotices (soleComputation 0 archive request fingerprint) } := by
  let call := soleCall 0 archive request
  let c := soleComputation 0 archive request fingerprint
  let found? := (rulesets.store.get now request.key (some fingerprint)).2
  have hkeep := keep_sole store now c
  -- The ledger after the snapshot, after the text is kept, and after the computation has ended.
  let begun : Ledger := {
    desk := { rulesets := { store, running := [c] }, count := 1 }
    asked := [request]
    visits := [⟨call, found?⟩] }
  let kept : Ledger := { begun with
    desk := { begun.desk with rulesets := { store := storeAfter store now c, running := [c] } }
    told := call.computeNotices }
  let closed : Ledger := { kept with
    desk := { kept.desk with
      rulesets := { store := storeAfter store now c }
      settled := [⟨call, call.text⟩] }
    due := [⟨call, .waited call.text⟩] }
  have hbegun : (({ desk := { rulesets } } : Ledger).step (.ask request)).step
      (.supply now 0 archive fingerprint) = begun := by
    unfold soleCall at h
    simp [step, Desk.ask, supply, Desk.supply, h, Desk.unwaiting, Memo.Answer.notices, begun, call,
      found?, soleCall, c]
  have hname : decide (c.identity = Memo.identity request.key (some fingerprint)) = true :=
    decide_eq_true (identity_sole 0 archive request fingerprint)
  have hkept : begun.step (.keep now (Memo.identity request.key (some fingerprint))) = kept := by
    simp only [step, keep, Desk.keep, Desk.running?, begun, List.find?_cons, hname, hkeep]
    rfl
  have hclosed : kept.step (.close (Memo.identity request.key (some fingerprint))) = closed := by
    simp only [step, close, Desk.close, Desk.running?, kept, begun, List.find?_cons, hname,
      close_sole]
    rfl
  have htold : finishNotices c = call.computeNotices ++ call.settleNotices call.text :=
    congrArg (call.computeNotices ++ ·) (List.append_nil _)
  refine ⟨[request], [⟨call, found?⟩], ?_⟩
  rw [finish_eq, hkeep, close_sole, htold]
  simp only [alone, run, List.foldl_cons, List.foldl_nil]
  rw [hbegun, hkept, hclosed]
  rfl

/-- Answering a request while no computation runs is the run of the ledger for it alone. -/
theorem alone_eq_answerOne (hidle : rulesets.running = []) (now : Number) (archive : Archive)
    (fingerprint : String) (request : Request) :
    let l := alone rulesets now archive fingerprint request
    let answered := rulesets.answerOne now ⟨archive, some fingerprint⟩ request
    l.desk.rulesets = answered.1 ∧
      l.returned.map Receipt.settlement = [⟨soleCall 0 archive request, answered.2.1⟩] ∧
      l.told = answered.2.2 := by
  dsimp only
  rcases begin_idle hidle now fingerprint archive request with ⟨store, text, h⟩ | ⟨store, h⟩
  · obtain ⟨asked, visits, halone⟩ := alone_of_kept (h 0)
    rw [answerOne_of_kept (h 0), halone]
    exact ⟨rfl, rfl, rfl⟩
  · obtain ⟨asked, visits, halone⟩ := alone_of_started (h 0)
    rw [answerOne_of_started (h 0), halone]
    exact ⟨rfl, rfl, rfl⟩

/-- An answered request is counted once, by how it ended. -/
theorem accounts_answerOne (hidle : rulesets.running = []) (now : Number) (archive : Archive)
    (fingerprint : String) (request : Request) :
    let answered := rulesets.answerOne now ⟨archive, some fingerprint⟩ request
    ∃ r : Receipt, r.call.request = request ∧ r.ending.outcome = answered.2.1 ∧
      answered.2.2.filter Notice.isAccount = [r.account] := by
  obtain ⟨-, hreturned, htold⟩ := alone_eq_answerOne hidle now archive fingerprint request
  have htallied : Tallied (alone rulesets now archive fingerprint request) :=
    (Tallied.idle hidle).run _
  obtain ⟨r, hr, hsettlement⟩ := List.map_eq_singleton_iff.mp hreturned
  have hcall : r.call = soleCall 0 archive request := congrArg Settlement.call hsettlement
  refine ⟨r, ?_, congrArg Settlement.outcome hsettlement, ?_⟩
  · rw [hcall]
    rfl
  · rw [← htold, htallied.accounts, hr]
    rfl

end Ledger

end DomainRules
