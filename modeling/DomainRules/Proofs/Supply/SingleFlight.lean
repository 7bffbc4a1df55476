import DomainRules.Proofs.Supply.Traffic

namespace DomainRules.Traffic

variable {t : Traffic}

/-- A refresh runs all the time from the first of some events to the last. -/
def Flies (t : Traffic) (during : List Event) : Prop :=
  ¬ t.IsBusy ∧ during ≠ [] ∧ ∀ part, part <+: during → part ≠ [] → (t.run part).IsBusy

/-- What holds of the traffic at any time. -/
structure SingleFlight (t : Traffic) : Prop where
  /-- At most one request is on its way. -/
  single : t.wire.length ≤ 1
  /-- Every call has settled once, or it waits. -/
  once : (t.settled.map (·.1) ++ t.waiting).Perm (List.range t.count)
  /-- Whoever wants a refresh while one runs waits for it too, and nothing is sent. -/
  joins : t.IsBusy → ∀ event number, t.asked? event = some number →
    (t.step event).wire = t.wire ∧ (t.step event).waiting = t.waiting ++ [number]
  /-- While no refresh runs nobody waits, and nothing is on its way. -/
  rests : ¬ t.IsBusy → t.waiting = [] ∧ t.wire = []
  /-- Whoever wants a refresh while none runs starts one with a probe. -/
  starts : ¬ t.IsBusy → ∀ event number, t.asked? event = some number →
    (t.step event).IsBusy ∧ (t.step event).wire = [.probe] ∧ (t.step event).waiting = [number]
  /-- When a refresh that begins now ends, all who wanted one since settle with one outcome. Apart
  from them settle those who found an archive that is current. -/
  settles : ∀ during last, t.Flies during → ¬ ((t.run during).step last).IsBusy →
    ∃ outcome, ((t.run during).step last).settled =
      t.settled ++ t.served during ++ (t.asking during).map fun caller => (caller, outcome)
  /-- A refresh that runs ends with the answers to its requests, whatever they are. -/
  ends : ∀ now reported later data,
    ¬ (((t.step (.probe now reported)).step (.download later data)).step .close).IsBusy

theorem idle_of_not_isBusy (h : ¬ t.IsBusy) : t.closing = none ∧ t.supply.phase = .idle := by
  obtain ⟨hclosing, hphase⟩ := not_or.mp h
  exact ⟨by simpa using hclosing, Classical.not_not.mp hphase⟩

theorem Orderly.rests (h : Orderly t) (hb : ¬ t.IsBusy) : t.waiting = [] ∧ t.wire = [] := by
  obtain ⟨hclosing, hphase⟩ := idle_of_not_isBusy hb
  constructor
  · rw [waiting, hclosing]
    exact Supply.callers_of_idle hphase
  · rw [h.wire]
    exact Supply.outstanding_of_idle hphase

theorem Turn.once {next : Traffic} {event : Event} (h : Turn t next event)
    (hp : (t.settled.map (·.1) ++ t.waiting).Perm (List.range t.count)) :
    (next.settled.map (·.1) ++ next.waiting).Perm (List.range next.count) := by
  have hnew : (t.settled.map (·.1) ++ t.waiting ++ [t.count]).Perm (List.range (t.count + 1)) := by
    rw [List.range_succ]
    exact hp.append_right [t.count]
  cases h with
  | served hs ha hn hnumber =>
    rename_i settlement
    subst hn
    -- The new call stands before those who wait, and not behind them.
    refine List.Perm.trans ?_ hnew
    have hwaiting : ({ t with
        count := t.count + 1
        settled := t.settled ++ [settlement] } : Traffic).waiting = t.waiting := rfl
    rw [hwaiting, List.map_append, List.map_singleton, hnumber, List.append_assoc,
      List.append_assoc]
    exact List.perm_append_comm.append_left (t.settled.map (·.1))
  | asked hs ha hbusy hjoin hstart hcount hsettled hwaiting =>
    rw [hsettled, hwaiting, hcount, ← List.append_assoc]
    exact hnew
  | passed hs ha hbusy hcount hsettled hwaiting =>
    rw [hsettled, hwaiting, hcount]
    exact hp
  | ended outcome hs ha hbusy hcount hsettled hwaiting =>
    have hnumbers : (t.waiting.map fun caller => (caller, outcome)).map (·.1) = t.waiting := by
      rw [List.map_map]
      exact List.map_id t.waiting
    rw [hsettled, hwaiting, hcount, List.map_append, hnumbers, List.append_nil]
    exact hp

theorem once_run (h : Orderly t)
    (hp : (t.settled.map (·.1) ++ t.waiting).Perm (List.range t.count)) (events : List Event) :
    ((t.run events).settled.map (·.1) ++ (t.run events).waiting).Perm
      (List.range (t.run events).count) := by
  induction events generalizing t with
  | nil => exact hp
  | cons event events ih =>
    obtain ⟨hnext, hturn⟩ := h.step event
    exact ih hnext (hturn.once hp)

theorem asked?_eq {event : Event} {number : Nat} (h : t.asked? event = some number) :
    number = t.count := by
  cases event with
  | ensure now =>
    rw [asked?] at h
    split at h
    · cases h
    · exact (Option.some.inj h).symm
  | force => exact (Option.some.inj h).symm
  | probe now answer => cases h
  | download now answer => cases h
  | close => cases h

theorem Orderly.step_of_asked (h : Orderly t) {event : Event} {number : Nat}
    (ha : t.asked? event = some number) :
    (t.step event).IsBusy ∧ (t.IsBusy → (t.step event).wire = t.wire) ∧
      (¬ t.IsBusy → (t.step event).wire = [.probe]) ∧
      (t.step event).waiting = t.waiting ++ [number] := by
  cases (h.step event).2 with
  | served hs hn => cases hn.symm.trans ha
  | asked hs _ hbusy hjoin hstart hcount hsettled hwaiting =>
    rw [asked?_eq ha]
    exact ⟨hbusy, hjoin, hstart, hwaiting⟩
  | passed hs hn => cases hn.symm.trans ha
  | ended outcome hs hn => cases hn.symm.trans ha

theorem Orderly.during (h : Orderly t) (hb : ¬ t.IsBusy) {during : List Event}
    (hf : ∀ part, part <+: during → part ≠ [] → (t.run part).IsBusy) :
    (t.run during).waiting = t.asking during ∧
      (t.run during).settled = t.settled ++ t.served during := by
  induction during using List.reverseRecOn with
  | nil => exact ⟨(h.rests hb).1, (List.append_nil t.settled).symm⟩
  | append_singleton during event ih =>
    obtain ⟨hwait, hlog⟩ := ih fun part hp hne =>
      hf part (hp.trans (List.prefix_append during [event])) hne
    have hnext : ((t.run during).step event).IsBusy := by
      rw [← run_concat]
      exact hf _ List.prefix_rfl (by simp)
    rw [run_concat, asking_concat, served_concat]
    -- The event cannot be the end of the refresh, since one runs afterwards.
    cases ((h.run during).step event).2 with
    | served hs ha hn hnumber =>
      rw [hs, ha, hn]
      constructor
      · rw [Option.toList_none, List.append_nil]
        exact hwait
      · rw [Option.toList_some, ← List.append_assoc, ← hlog]
    | asked hs ha _ hjoin hstart hcount hsettled hwaiting =>
      rw [hs, ha, hsettled, hwaiting, hwait, hlog, Option.toList_none, List.append_nil]
      exact ⟨rfl, rfl⟩
    | passed hs ha _ hcount hsettled hwaiting =>
      rw [hs, ha, hsettled, hwaiting, hwait, hlog, Option.toList_none, List.append_nil,
        Option.toList_none, List.append_nil]
      exact ⟨rfl, rfl⟩
    | ended outcome hs ha hbusy => exact absurd hnext hbusy

theorem Orderly.settles (h : Orderly t) {during : List Event} {last : Event}
    (hf : t.Flies during) (hl : ¬ ((t.run during).step last).IsBusy) :
    ∃ outcome, ((t.run during).step last).settled =
      t.settled ++ t.served during ++ (t.asking during).map fun caller => (caller, outcome) := by
  obtain ⟨hb, hne, hbusy⟩ := hf
  obtain ⟨hwait, hlog⟩ := h.during hb hbusy
  have hrunning := hbusy during List.prefix_rfl hne
  cases ((h.run during).step last).2 with
  | served hs ha hn => exact absurd (hn ▸ hrunning) hl
  | asked hs ha hnext => exact absurd hnext hl
  | passed hs ha hiff => exact absurd (hiff.mpr hrunning) hl
  | ended outcome hs ha hnext hcount hsettled =>
    refine ⟨outcome, ?_⟩
    rw [hsettled, hlog, hwait]

theorem Orderly.outstanding_probe (h : Orderly t) (now : Number)
    (answer : Except Failure (Option String)) :
    (t.step (.probe now answer)).supply.outstanding ≠ [.probe] := by
  rw [Traffic.step]
  split
  · rename_i hm
    rw [supply_receive]
    obtain ⟨-, hout, -⟩ | ⟨outcome, -, hidle⟩ :=
      Supply.advances_probed (h.outstanding_of_mem hm) now answer
    · rw [hout]
      decide
    · rw [Supply.outstanding_of_idle hidle]
      decide
  · -- If one were awaited it would be on its way.
    rename_i hm
    intro hout
    rw [h.wire, hout] at hm
    exact hm List.mem_cons_self

theorem Orderly.phase_download (h : Orderly t) (hout : t.supply.outstanding ≠ [.probe])
    (now : Number) (answer : Except Failure Bytes) :
    (t.step (.download now answer)).supply.phase = .idle := by
  rw [Traffic.step]
  split
  · rename_i hm
    rw [supply_receive]
    obtain ⟨outcome, -, hidle⟩ := Supply.ends_downloaded (h.outstanding_of_mem hm) now answer
    exact hidle
  · rename_i hm
    rw [h.wire] at hm
    unfold Supply.outstanding at hm hout
    cases hp : t.supply.phase with
    | idle => rfl
    | probing before callers => simp [hp] at hout
    | downloading before reported callers => simp [hp] at hm

theorem not_isBusy_close (h : t.supply.phase = .idle) : ¬ (t.step .close).IsBusy := by
  rw [Traffic.step, Traffic.close]
  split
  · exact not_isBusy_of_rest rfl h
  · rename_i hnone
    exact not_isBusy_of_rest hnone h

/-- Whatever is called and answered, and whenever, there is one refresh at a time. -/
theorem singleFlight_run (holding : Holding) (events : List Event) :
    SingleFlight ((opened holding).run events) := by
  have h := (Orderly.opened holding).run events
  exact {
    single := by
      rw [h.wire]
      exact Supply.length_outstanding_le _
    once := once_run (.opened holding) .nil events
    joins := fun hb event number ha =>
      have hstep := h.step_of_asked ha
      ⟨hstep.2.1 hb, hstep.2.2.2⟩
    rests := h.rests
    starts := fun hb event number ha => by
      obtain ⟨hbusy, -, hstart, hwaiting⟩ := h.step_of_asked ha
      rw [(h.rests hb).1] at hwaiting
      exact ⟨hbusy, hstart hb, hwaiting⟩
    settles := fun during last hf hl => h.settles hf hl
    ends := fun now reported later data => by
      have hprobe := h.outstanding_probe now reported
      exact not_isBusy_close ((h.step _).1.phase_download hprobe later data) }

/-- Two callers share a probe that fails, and the next one starts another. -/
example (holding : Holding) (now : Number) (failure : Failure) :
    let t := (opened { holding with held := none }).run
      [.force, .ensure now, .probe now (.error failure), .close, .force]
    t.settled = [(0, .error failure), (1, .error failure)] ∧ t.waiting = [2] ∧
      t.wire = [.probe] := ⟨rfl, rfl, rfl⟩

end DomainRules.Traffic
