import DomainRules.Proofs.History
import DomainRules.Proofs.Supply.Basic
import Mathlib.Data.List.Induction

/-!
The traffic at a supply: calls that ask for the archive, and the requests that are sent to the
publisher for them. Calls and answers come in any order and at any time.
-/
namespace DomainRules

namespace Supply

variable {ι : Type}

def outstanding (supply : Supply ι) : List Errand :=
  match supply.phase with
  | .idle => []
  | .probing _ _ => [.probe]
  | .downloading _ _ _ => [.download]

theorem outstanding_of_idle {supply : Supply ι} (h : supply.phase = .idle) :
    supply.outstanding = [] := by
  rw [outstanding, h]

theorem callers_of_idle {supply : Supply ι} (h : supply.phase = .idle) : supply.callers = [] := by
  rw [callers, h]

theorem length_outstanding_le (supply : Supply ι) : supply.outstanding.length ≤ 1 := by
  unfold outstanding
  cases supply.phase <;> simp

theorem phase_force_ne_idle (supply : Supply ι) (caller : ι) :
    (supply.force caller).1.phase ≠ .idle := by
  unfold force
  cases supply.phase <;> nofun

theorem force_ne_held (supply : Supply ι) (caller : ι) (snapshot : Snapshot) :
    (supply.force caller).2 ≠ .held snapshot := by
  unfold force
  cases supply.phase <;> nofun

theorem outstanding_force_of_idle {supply : Supply ι} (h : supply.phase = .idle) (caller : ι) :
    (supply.force caller).1.outstanding = [.probe] := by
  rw [force, h]
  rfl

theorem outstanding_force_of_ne_idle {supply : Supply ι} (h : supply.phase ≠ .idle) (caller : ι) :
    (supply.force caller).1.outstanding = supply.outstanding := by
  unfold force outstanding
  cases hp : supply.phase with
  | idle => exact absurd hp h
  | probing before callers => rfl
  | downloading before reported callers => rfl

def Ends (supply next : Supply ι) (progress : Progress ι) : Prop :=
  ∃ outcome, progress = .ended supply.callers outcome ∧ next.phase = .idle

def Advances (supply next : Supply ι) (progress : Progress ι) : Prop :=
  (progress = .downloads ∧ next.outstanding = [.download] ∧ next.callers = supply.callers) ∨
    supply.Ends next progress

theorem advances_probed {supply : Supply ι} (h : supply.outstanding = [.probe]) (now : Number)
    (answer : Except Failure (Option String)) :
    supply.Advances (supply.probed now answer).1 (supply.probed now answer).2.1 := by
  have hstep := probed_step supply now answer
  generalize supply.probed now answer = told at hstep
  obtain ⟨next, progress, notices⟩ := told
  unfold outstanding at h
  cases hp : supply.phase with
  | idle => simp [hp] at h
  | downloading before reported callers => simp [hp] at h
  | probing before callers =>
    cases hstep with
    | ignored hno => exact absurd hp (hno before callers)
    | failed hphase => exact .inr ⟨_, by rw [Supply.callers, hphase], rfl⟩
    | stale hphase => exact .inr ⟨_, by rw [Supply.callers, hphase], rfl⟩
    | unchanged hphase _ => exact .inr ⟨_, by rw [Supply.callers, hphase], rfl⟩
    | outdated hphase _ => exact .inl ⟨rfl, rfl, by rw [Supply.callers, Supply.callers, hphase]⟩

theorem ends_downloaded {supply : Supply ι} (h : supply.outstanding = [.download]) (now : Number)
    (answer : Except Failure Bytes) :
    supply.Ends (supply.downloaded now answer).1 (supply.downloaded now answer).2.1 := by
  have hstep := downloaded_step supply now answer
  generalize supply.downloaded now answer = told at hstep
  obtain ⟨next, progress, notices⟩ := told
  unfold outstanding at h
  cases hp : supply.phase with
  | idle => simp [hp] at h
  | probing before callers => simp [hp] at h
  | downloading before reported callers =>
    cases hstep with
    | ignored hno => exact absurd hp (hno before reported callers)
    | failed hphase => exact ⟨_, by rw [Supply.callers, hphase], rfl⟩
    | refused hphase => exact ⟨_, by rw [Supply.callers, hphase], rfl⟩
    | taken hphase _ _ => exact ⟨_, by rw [Supply.callers, hphase], rfl⟩

theorem probed_of_notMem {supply : Supply ι} (h : .probe ∉ supply.outstanding) (now : Number)
    (answer : Except Failure (Option String)) :
    supply.probed now answer = (supply, .ignored, []) := by
  unfold probed
  split
  · rename_i hphase
    exact absurd (by rw [outstanding, hphase]; exact List.mem_cons_self) h
  · rfl

theorem downloaded_of_notMem {supply : Supply ι} (h : .download ∉ supply.outstanding) (now : Number)
    (answer : Except Failure Bytes) :
    supply.downloaded now answer = (supply, .ignored, []) := by
  unfold downloaded
  split
  · rename_i hphase
    exact absurd (by rw [outstanding, hphase]; exact List.mem_cons_self) h
  · rfl

theorem outstanding_eq_of_anonymous {κ : Type} {supply : Supply ι} {other : Supply κ}
    (h : supply.anonymous = other.anonymous) : supply.outstanding = other.outstanding := by
  have hphase := congrArg phase h
  unfold anonymous map at hphase
  unfold outstanding
  cases hs : supply.phase <;> cases ho : other.phase <;> simp_all [Phase.map]

end Supply

/-- The supply, the calls at it, and the requests on their way. -/
structure Traffic where
  supply : Supply Nat
  /-- Those who wait for a refresh whose outcome is known, until it ends for them. An archive that is
  taken up is held already while it is being stored. -/
  closing : Option (List Nat × Except Failure Snapshot) := none
  wire : List Errand := []
  /-- The number of calls so far, which is the number of the next one. -/
  count : Nat := 0
  settled : List (Nat × Except Failure Snapshot) := []

namespace Traffic

inductive Event where
  | ensure (now : Number)
  | force
  | probe (now : Number) (answer : Except Failure (Option String))
  | download (now : Number) (answer : Except Failure Bytes)
  /-- A refresh whose outcome is known ends. -/
  | close

def take (t : Traffic) : Supply Nat × Supply.Answer → Traffic
  | (_, .held snapshot) =>
    { t with count := t.count + 1, settled := t.settled ++ [(t.count, .ok snapshot)] }
  | (supply, answer) => match t.closing, answer with
    | some (callers, outcome), _ =>
      { t with count := t.count + 1, closing := some (callers ++ [t.count], outcome) }
    | none, .started => { t with count := t.count + 1, supply, wire := t.wire ++ [.probe] }
    | none, _ => { t with count := t.count + 1, supply }

def receive (t : Traffic) (errand : Errand) :
    Supply Nat × Supply.Progress Nat × List Notice → Traffic
  | (supply, .ignored, _) => { t with supply, wire := t.wire.erase errand }
  | (supply, .downloads, _) => { t with supply, wire := t.wire.erase errand ++ [.download] }
  | (supply, .ended callers outcome, _) =>
    { t with supply, wire := t.wire.erase errand, closing := some (callers, outcome) }

@[simp] theorem supply_receive (t : Traffic) (errand : Errand)
    (told : Supply Nat × Supply.Progress Nat × List Notice) :
    (t.receive errand told).supply = told.1 := by
  obtain ⟨supply, progress, notices⟩ := told
  cases progress <;> rfl

theorem settled_receive (t : Traffic) (errand : Errand)
    (told : Supply Nat × Supply.Progress Nat × List Notice) :
    (t.receive errand told).settled = t.settled := by
  obtain ⟨supply, progress, notices⟩ := told
  cases progress <;> rfl

def close (t : Traffic) : Traffic :=
  match t.closing with
  | some (callers, outcome) =>
    { t with closing := none, settled := t.settled ++ callers.map fun caller => (caller, outcome) }
  | none => t

/-- Only a request that was sent can be answered. -/
def step (t : Traffic) : Event → Traffic
  | .ensure now => t.take (t.supply.ensure now t.count)
  | .force => t.take (t.supply.force t.count)
  | .probe now answer =>
    if .probe ∈ t.wire then t.receive .probe (t.supply.probed now answer) else t
  | .download now answer =>
    if .download ∈ t.wire then t.receive .download (t.supply.downloaded now answer) else t
  | .close => t.close

def run (t : Traffic) (events : List Event) : Traffic := events.foldl step t

theorem run_concat (t : Traffic) (events : List Event) (event : Event) :
    t.run (events ++ [event]) = (t.run events).step event := by
  rw [run, List.foldl_append]
  rfl

theorem run_cons (t : Traffic) (event : Event) (events : List Event) :
    t.run (event :: events) = (t.step event).run events := rfl

theorem run_append (t : Traffic) (earlier later : List Event) :
    t.run (earlier ++ later) = (t.run earlier).run later := List.foldl_append

def opened (holding : Holding) : Traffic := { supply := { holding } }

def IsBusy (t : Traffic) : Prop := t.closing.isSome ∨ t.supply.phase ≠ .idle

theorem not_isBusy_of_rest {t : Traffic} (hc : t.closing = none) (hp : t.supply.phase = .idle) :
    ¬ t.IsBusy := by
  rintro (hs | hn)
  · rw [hc] at hs
    cases hs
  · exact hn hp

theorem not_isBusy_opened (holding : Holding) : ¬ (opened holding).IsBusy :=
  not_isBusy_of_rest rfl rfl

def waiting (t : Traffic) : List Nat :=
  match t.closing with
  | some (callers, _) => callers
  | none => t.supply.callers

/-- The call of an event that wants a refresh: any that forces one, and any that finds no archive
that is current. -/
def asked? (t : Traffic) : Event → Option Nat
  | .ensure now => if (t.supply.holding.current? now).isSome then none else some t.count
  | .force => some t.count
  | _ => none

def served? (t : Traffic) : Event → Option (Nat × Except Failure Snapshot)
  | .ensure now => (t.supply.holding.current? now).map fun snapshot => (t.count, .ok snapshot)
  | _ => none

def asking (t : Traffic) (events : List Event) : List Nat := History.seen step asked? t events

def served (t : Traffic) (events : List Event) : List (Nat × Except Failure Snapshot) :=
  History.seen step served? t events

theorem asking_concat (t : Traffic) (events : List Event) (event : Event) :
    t.asking (events ++ [event]) = t.asking events ++ ((t.run events).asked? event).toList :=
  History.seen_concat step asked? t events event

theorem served_concat (t : Traffic) (events : List Event) (event : Event) :
    t.served (events ++ [event]) = t.served events ++ ((t.run events).served? event).toList :=
  History.seen_concat step served? t events event

/-- The requests on their way are those that the refresh waits for, and a refresh whose outcome is
known waits for none. -/
structure Orderly (t : Traffic) : Prop where
  wire : t.wire = t.supply.outstanding
  closing : t.closing.isSome → t.supply.phase = .idle

theorem Orderly.opened (holding : Holding) : Orderly (opened holding) := ⟨rfl, fun _ => rfl⟩

inductive Turn (t next : Traffic) (event : Event) : Prop where
  | served {settlement : Nat × Except Failure Snapshot} (hs : t.served? event = some settlement)
    (ha : t.asked? event = none)
    (hn : next = { t with count := t.count + 1, settled := t.settled ++ [settlement] })
    (hnumber : settlement.1 = t.count)
  | asked (hs : t.served? event = none) (ha : t.asked? event = some t.count) (hbusy : next.IsBusy)
    (hjoin : t.IsBusy → next.wire = t.wire) (hstart : ¬ t.IsBusy → next.wire = [.probe])
    (hcount : next.count = t.count + 1) (hsettled : next.settled = t.settled)
    (hwaiting : next.waiting = t.waiting ++ [t.count])
  | passed (hs : t.served? event = none) (ha : t.asked? event = none)
    (hbusy : next.IsBusy ↔ t.IsBusy) (hcount : next.count = t.count)
    (hsettled : next.settled = t.settled) (hwaiting : next.waiting = t.waiting)
  | ended (outcome : Except Failure Snapshot) (hs : t.served? event = none)
    (ha : t.asked? event = none) (hbusy : ¬ next.IsBusy) (hcount : next.count = t.count)
    (hsettled : next.settled = t.settled ++ t.waiting.map fun caller => (caller, outcome))
    (hwaiting : next.waiting = [])

variable {t : Traffic}

theorem isBusy_iff_of_closing_eq_none (h : t.closing = none) :
    t.IsBusy ↔ t.supply.phase ≠ .idle := by
  simp [IsBusy, h]

theorem Orderly.take_force_eq (h : Orderly t) (hc : t.closing = none) :
    t.take (t.supply.force t.count) =
      { t with
          count := t.count + 1
          supply := (t.supply.force t.count).1
          wire := (t.supply.force t.count).1.outstanding } := by
  have hwire := h.wire
  unfold Supply.outstanding at hwire
  cases hp : t.supply.phase <;>
    simp only [hp] at hwire <;> simp [take, Supply.force, Supply.outstanding, hp, hc, hwire]

theorem step_ensure_of_current {now : Number} {snapshot : Snapshot}
    (h : t.supply.holding.current? now = some snapshot) :
    t.step (.ensure now) =
      { t with count := t.count + 1, settled := t.settled ++ [(t.count, .ok snapshot)] } := by
  have hheld : t.supply.ensure now t.count = (t.supply, .held snapshot) := by
    rw [Supply.ensure, h]
  rw [step, hheld]
  rfl

theorem step_ensure_of_outdated {now : Number} (h : t.supply.holding.current? now = none) :
    t.step (.ensure now) = t.take (t.supply.force t.count) := by
  rw [step, Supply.ensure, h]

theorem take_force_of_closing {callers : List Nat} {outcome : Except Failure Snapshot}
    (hc : t.closing = some (callers, outcome)) :
    t.take (t.supply.force t.count) =
      { t with count := t.count + 1, closing := some (callers ++ [t.count], outcome) } := by
  have hheld := Supply.force_ne_held t.supply t.count
  generalize t.supply.force t.count = told at hheld
  obtain ⟨supply, answer⟩ := told
  cases answer with
  | held snapshot => exact absurd rfl (hheld snapshot)
  | joined => simp only [take, hc]
  | started => simp only [take, hc]

theorem Orderly.take_force (h : Orderly t) {event : Event} (hs : t.served? event = none)
    (ha : t.asked? event = some t.count) :
    Orderly (t.take (t.supply.force t.count)) ∧
      Turn t (t.take (t.supply.force t.count)) event := by
  cases hc : t.closing with
  | some s =>
    obtain ⟨callers, outcome⟩ := s
    have hsome : t.closing.isSome := by rw [hc]; rfl
    rw [take_force_of_closing hc]
    -- The refresh that runs is over but for its end, and the supply itself is at rest.
    refine ⟨⟨h.wire, fun _ => h.closing hsome⟩, ?_⟩
    refine .asked hs ha (.inl rfl) (fun _ => rfl) (absurd (.inl hsome)) rfl rfl ?_
    simp only [waiting, hc]
  | none =>
    have hbusy := isBusy_iff_of_closing_eq_none hc
    rw [h.take_force_eq hc]
    refine ⟨⟨rfl, fun hs => ?_⟩, .asked hs ha (.inr ?_) ?_ ?_ rfl rfl ?_⟩
    · rw [hc] at hs
      cases hs
    · exact Supply.phase_force_ne_idle t.supply t.count
    · intro hb
      rw [h.wire]
      exact Supply.outstanding_force_of_ne_idle (hbusy.mp hb) t.count
    · intro hb
      have hidle : t.supply.phase = .idle := Classical.not_not.mp (mt hbusy.mpr hb)
      exact Supply.outstanding_force_of_idle hidle t.count
    · simp only [waiting, hc]
      exact Supply.callers_force t.supply t.count

theorem Orderly.receive (h : Orderly t) {errand : Errand} {event : Event}
    (hs : t.served? event = none) (ha : t.asked? event = none)
    (hwire : t.supply.outstanding = [errand])
    {told : Supply Nat × Supply.Progress Nat × List Notice}
    (hadvances : t.supply.Advances told.1 told.2.1) :
    Orderly (t.receive errand told) ∧ Turn t (t.receive errand told) event := by
  obtain ⟨supply, progress, notices⟩ := told
  have hphase : t.supply.phase ≠ .idle := by
    intro hidle
    rw [Supply.outstanding_of_idle hidle] at hwire
    cases hwire
  have hc : t.closing = none := by
    cases hc : t.closing with
    | none => rfl
    | some s => exact absurd (h.closing (by rw [hc]; rfl)) hphase
  have hleft : t.wire.erase errand = [] := by
    rw [h.wire, hwire, List.erase_cons_head]
  -- Either way the same callers wait as before: for a download, or for the end.
  obtain ⟨hp, hout, hcallers⟩ | ⟨outcome, hp, hidle⟩ := hadvances
  · dsimp only at hp hout hcallers
    subst hp
    have hnext : supply.phase ≠ .idle := by
      intro hidle
      rw [Supply.outstanding_of_idle hidle] at hout
      cases hout
    refine ⟨⟨?_, fun hs => ?_⟩, .passed hs ha ?_ rfl rfl ?_⟩
    · simp only [Traffic.receive, hleft, hout, List.nil_append]
    · simp only [Traffic.receive, hc, Option.isSome_none, Bool.false_eq_true] at hs
    · exact iff_of_true (.inr hnext) (.inr hphase)
    · simp only [waiting, Traffic.receive, hc, hcallers]
  · dsimp only at hp hidle
    subst hp
    refine ⟨⟨?_, fun _ => hidle⟩, .passed hs ha ?_ rfl rfl ?_⟩
    · simp only [Traffic.receive, hleft, Supply.outstanding_of_idle hidle]
    · exact iff_of_true (.inl rfl) (.inr hphase)
    · simp only [waiting, Traffic.receive, hc]

theorem Orderly.close (h : Orderly t) : Orderly t.close ∧ Turn t t.close .close := by
  unfold Traffic.close
  cases hc : t.closing with
  | none => exact ⟨h, .passed rfl rfl Iff.rfl rfl rfl rfl⟩
  | some s =>
    obtain ⟨callers, outcome⟩ := s
    have hidle : t.supply.phase = .idle := h.closing (by rw [hc]; rfl)
    refine ⟨⟨h.wire, fun hs => ?_⟩, .ended outcome rfl rfl ?_ rfl ?_ ?_⟩
    · cases hs
    · rintro (hs | hs)
      · cases hs
      · exact hs hidle
    · simp only [waiting, hc]
    · simp only [waiting, Supply.callers_of_idle hidle]

theorem Orderly.outstanding_of_mem (h : Orderly t) {errand : Errand} (hm : errand ∈ t.wire) :
    t.supply.outstanding = [errand] := by
  rw [h.wire] at hm
  unfold Supply.outstanding at hm ⊢
  cases hp : t.supply.phase with
  | idle => simp [hp] at hm
  | probing before callers => simpa [hp, eq_comm] using hm
  | downloading before reported callers => simpa [hp, eq_comm] using hm

theorem Orderly.step (h : Orderly t) (event : Event) :
    Orderly (t.step event) ∧ Turn t (t.step event) event := by
  have hstay : ∀ {event}, t.served? event = none → t.asked? event = none →
      Orderly t ∧ Turn t t event := fun hs ha => ⟨h, .passed hs ha Iff.rfl rfl rfl rfl⟩
  cases event with
  | force => exact h.take_force rfl rfl
  | close => exact h.close
  | ensure now =>
    cases hcurrent : t.supply.holding.current? now with
    | none =>
      rw [step_ensure_of_outdated hcurrent]
      exact h.take_force (by rw [served?, hcurrent]; rfl) (by rw [asked?, hcurrent]; rfl)
    | some snapshot =>
      rw [step_ensure_of_current hcurrent]
      exact ⟨⟨h.wire, h.closing⟩,
        .served (by rw [served?, hcurrent]; rfl) (by rw [asked?, hcurrent]; rfl) rfl rfl⟩
  | probe now answer =>
    rw [Traffic.step]
    split
    · rename_i hm
      have hwire := h.outstanding_of_mem hm
      exact h.receive rfl rfl hwire (Supply.advances_probed hwire now answer)
    · exact hstay rfl rfl
  | download now answer =>
    rw [Traffic.step]
    split
    · rename_i hm
      have hwire := h.outstanding_of_mem hm
      exact h.receive rfl rfl hwire (.inr (Supply.ends_downloaded hwire now answer))
    · exact hstay rfl rfl

theorem Orderly.run (h : Orderly t) (events : List Event) : Orderly (t.run events) := by
  induction events generalizing t with
  | nil => exact h
  | cons event events ih => exact ih (h.step event).1

end Traffic

end DomainRules
