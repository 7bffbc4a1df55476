import DomainRules.Proofs.Keyed
import DomainRules.Proofs.Memo.Basic

namespace DomainRules.Memo

variable {ι : Type}

def waiters (memo : Memo ι) : List ι := memo.running.flatMap Computation.callers

theorem map_identity_join (caller : ι) (name : String) (running : List (Computation ι)) :
    (join caller name running).map (·.identity) = running.map (·.identity) := by
  induction running with
  | nil => rfl
  | cons c running ih =>
    rw [join]
    split
    · rfl
    · rw [List.map_cons, List.map_cons, ih]

theorem callers_join {caller : ι} {name : String} {running : List (Computation ι)}
    (h : ∃ c ∈ running, c.identity = name) :
    ((join caller name running).flatMap Computation.callers).Perm
      (running.flatMap Computation.callers ++ [caller]) := by
  induction running with
  | nil =>
    obtain ⟨c, hc, -⟩ := h
    cases hc
  | cons c running ih =>
    rw [join]
    split
    · -- The new caller stands behind the callers of this computation, before all others.
      have hcallers : ({ c with joined := c.joined ++ [caller] } : Computation ι).callers =
          c.callers ++ [caller] := rfl
      rw [List.flatMap_cons, List.flatMap_cons, hcallers, List.append_assoc, List.append_assoc]
      exact List.perm_append_comm.append_left c.callers
    · rename_i hname
      rw [List.flatMap_cons, List.flatMap_cons, List.append_assoc]
      apply List.Perm.append_left
      apply ih
      obtain ⟨d, hd, hmatch⟩ := h
      rcases List.mem_cons.mp hd with rfl | hd
      · exact absurd hmatch hname
      · exact ⟨d, hd, hmatch⟩

variable {memo : Memo ι} {now : Number} {caller : ι} {key : String}
  {fingerprint : Option String}

/-- A call finds its text and leaves the computations alone, or it becomes one of those who wait. -/
theorem call_finds_or_waits (memo : Memo ι) (now : Number) (caller : ι) (key : String)
    (fingerprint : Option String) :
    (∃ text, (memo.store.get now key fingerprint).2 = some text ∧
      (memo.call now caller key fingerprint).2 = .kept text ∧
      (memo.call now caller key fingerprint).1.running = memo.running) ∨
    ((memo.store.get now key fingerprint).2 = none ∧
      (∀ text, (memo.call now caller key fingerprint).2 ≠ .kept text) ∧
      ((memo.call now caller key fingerprint).1.waiters).Perm (memo.waiters ++ [caller])) := by
  have hnone : (∀ text, (memo.call now caller key fingerprint).2 ≠ .kept text) →
      (memo.store.get now key fingerprint).2 = none := by
    intro hanswer
    rw [Option.eq_none_iff_forall_ne_some]
    exact fun text hget => hanswer text (answer_of_get hget)
  rcases call_cases memo now caller key fingerprint with
    hfound | ⟨hanswer, hname, hrunning⟩ | ⟨hanswer, -, hrunning⟩
  · exact .inl hfound
  -- Whether it joins a computation or starts one, it waits.
  · have hother : ∀ text, (memo.call now caller key fingerprint).2 ≠ .kept text := by
      intro text he
      rw [hanswer] at he
      cases he
    refine .inr ⟨hnone hother, hother, ?_⟩
    rw [waiters, hrunning]
    exact callers_join hname
  · have hother : ∀ text, (memo.call now caller key fingerprint).2 ≠ .kept text := by
      intro text he
      rw [hanswer] at he
      cases he
    refine .inr ⟨hnone hother, hother, ?_⟩
    rw [waiters, hrunning, List.flatMap_append]
    exact .refl _

theorem mem_waiters_call {waiter : ι} (h : waiter ∈ memo.waiters) (now : Number) (caller : ι)
    (key : String) (fingerprint : Option String) :
    waiter ∈ (memo.call now caller key fingerprint).1.waiters := by
  rcases call_finds_or_waits memo now caller key fingerprint with
    ⟨-, -, -, hrunning⟩ | ⟨-, -, hwaiters⟩
  · rwa [waiters, hrunning]
  · exact hwaiters.mem_iff.mpr (List.mem_append_left _ h)

theorem names_call (h : (memo.running.map (·.identity)).Nodup) (now : Number) (caller : ι)
    (key : String) (fingerprint : Option String) :
    ((memo.call now caller key fingerprint).1.running.map (·.identity)).Nodup := by
  rcases call_cases memo now caller key fingerprint with
    ⟨-, -, -, hrunning⟩ | ⟨-, -, hrunning⟩ | ⟨-, hnew, hrunning⟩
  · rwa [hrunning]
  · rwa [hrunning, map_identity_join]
  · rw [hrunning, List.map_append]
    apply List.nodup_append_comm.mp
    refine List.nodup_cons.mpr ⟨?_, h⟩
    intro hmem
    obtain ⟨c, hc, he⟩ := List.mem_map.mp hmem
    exact hnew c hc he

theorem waiters_perm_of_mem (h : (memo.running.map (·.identity)).Nodup) {c : Computation ι}
    (hc : c ∈ memo.running) :
    memo.waiters.Perm
      (c.callers ++ (memo.running.filter (·.identity ≠ c.identity)).flatMap Computation.callers) :=
  (Keyed.perm_cons_filter h hc).flatMap_right Computation.callers

end DomainRules.Memo
