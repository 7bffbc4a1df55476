import DomainRules.Proofs.Supply.Traffic
import DomainRules.Repeater

/-!
Requests and the refresh in the background share one supply. Requests only want an archive; the
refresh in the background notes which version is held, waits for the end of a refresh, and announces
the version that it brought if it is another one.
-/
namespace DomainRules

inductive Asker where
  | visitor
  /-- The refresh in the background, with the version that was held when it began. -/
  | watcher (known : Option String)
  deriving DecidableEq, Repr

namespace Asker

def isWatcher : Asker → Bool
  | visitor => false
  | watcher _ => true

/-- The version announced last, after the asker learned that a refresh brought a version. -/
def announce (version announced : Option String) : Asker → Option String
  | visitor => announced
  | watcher known => if Chore.isAnnounced known version then version else announced

end Asker

structure Watch where
  supply : Supply Asker
  /-- Those who wait for a refresh whose archive is held already, while it is being stored. -/
  storing : Option (List Asker × Snapshot) := none
  /-- The version announced last. Before the first announcement it is the one that was held in the
  beginning. -/
  announced : Option String

namespace Watch

inductive Event where
  | visit (now : Number)
  /-- The refresh in the background begins. -/
  | refresh
  | probe (now : Number) (answer : Except Failure (Option String))
  | download (now : Number) (answer : Except Failure Bytes)
  /-- The archive is stored, or storing it failed. -/
  | stored

def version? (w : Watch) : Option String := w.supply.holding.fingerprint?

def join (w : Watch) (asker : Asker) : Watch :=
  match w.storing with
  | some (callers, snapshot) => { w with storing := some (callers ++ [asker], snapshot) }
  | none => { w with supply := (w.supply.force asker).1 }

def visit (w : Watch) (now : Number) : Watch :=
  match w.storing with
  | some _ => if (w.supply.holding.current? now).isSome then w else w.join .visitor
  | none => { w with supply := (w.supply.ensure now .visitor).1 }

def settle (w : Watch) (callers : List Asker) : Except Failure Snapshot → Watch
  | .ok snapshot =>
    { w with announced := callers.foldl (Asker.announce snapshot.fingerprint) w.announced }
  | .error _ => w

def probe (w : Watch) (now : Number) (answer : Except Failure (Option String)) : Watch :=
  match w.supply.probed now answer with
  | (supply, .ended callers outcome, _) => { w with supply }.settle callers outcome
  | (supply, _, _) => { w with supply }

/-- The publisher answers a download. An archive that is taken up is held from now on, and the
refresh ends when it is stored. -/
def download (w : Watch) (now : Number) (answer : Except Failure Bytes) : Watch :=
  match w.supply.downloaded now answer with
  | (supply, .ended callers (.ok snapshot), _) =>
    { w with supply, storing := some (callers, snapshot) }
  | (supply, _, _) => { w with supply }

def close (w : Watch) : Watch :=
  match w.storing with
  | some (callers, snapshot) => { w with storing := none }.settle callers (.ok snapshot)
  | none => w

def step (w : Watch) : Event → Watch
  | .visit now => w.visit now
  | .refresh => w.join (.watcher w.version?)
  | .probe now answer => w.probe now answer
  | .download now answer => w.download now answer
  | .stored => w.close

def run (w : Watch) (events : List Event) : Watch := events.foldl step w

def begun (holding : Holding) : Watch :=
  { supply := { holding }, announced := holding.fingerprint? }

/-- Those for whom a refresh ends well with an event. -/
def served (w : Watch) : Event → List Asker
  | .probe now answer => match (w.supply.probed now answer).2.1 with
    | .ended callers (.ok _) => callers
    | _ => []
  | .stored => match w.storing with
    | some (callers, _) => callers
    | none => []
  | _ => []

/-- A refresh in the background ends well with an event. -/
def Finishes (w : Watch) (event : Event) : Prop := ∃ known, .watcher known ∈ w.served event

structure Replacement where
  version : String
  isWatched : Bool
  deriving DecidableEq, Repr

def replacement? (w : Watch) (event : Event) : Option Replacement :=
  if (w.step event).version? = w.version? then none
  else (w.step event).version?.map fun version =>
    { version, isWatched := w.supply.callers.any Asker.isWatcher }

def replacements (w : Watch) : List Event → List Replacement
  | [] => []
  | event :: events => (w.replacement? event).toList ++ (w.step event).replacements events

def latest (first : Option String) (rs : List Replacement) : Option String :=
  rs.foldl (fun _ r => some r.version) first

/-- The traffic of an event. A refresh that brings no new archive ends at once; one that does ends
when the archive is stored. -/
def traffic (w : Watch) : Event → List Traffic.Event
  | .visit now => [.ensure now]
  | .refresh => [.force]
  | .probe now answer => .probe now answer :: match (w.supply.probed now answer).2.1 with
    | .ended _ _ => [.close]
    | _ => []
  | .download now answer => .download now answer :: match (w.supply.downloaded now answer).2.1 with
    | .ended _ (.error _) => [.close]
    | _ => []
  | .stored => [.close]

def trafficOf (w : Watch) : List Event → List Traffic.Event
  | [] => []
  | event :: events => w.traffic event ++ (w.step event).trafficOf events

/-- The watch stands where the traffic stands: the same is held, the same refresh runs, and as many
wait for it. -/
structure Follows (w : Watch) (t : Traffic) : Prop where
  supply : w.supply.anonymous = t.supply.anonymous
  storing : w.storing.map (fun s => (s.1.length, Except.ok s.2)) =
    t.closing.map fun c => (c.1.length, c.2)

variable {w : Watch} {t : Traffic}

theorem join_of_storing_eq_none (hs : w.storing = none) (asker : Asker) :
    w.join asker = { w with supply := (w.supply.force asker).1 } := by
  unfold join
  split
  · rename_i he
    cases hs.symm.trans he
  · rfl

theorem join_of_storing {askers : List Asker} {snapshot : Snapshot}
    (hs : w.storing = some (askers, snapshot)) (asker : Asker) :
    w.join asker = { w with storing := some (askers ++ [asker], snapshot) } := by
  unfold join
  split
  · rename_i he
    cases hs.symm.trans he
    rfl
  · rename_i he
    cases hs.symm.trans he

@[simp] theorem storing_settle (w : Watch) (callers : List Asker)
    (outcome : Except Failure Snapshot) : (w.settle callers outcome).storing = w.storing := by
  cases outcome <;> rfl

@[simp] theorem supply_settle (w : Watch) (callers : List Asker)
    (outcome : Except Failure Snapshot) : (w.settle callers outcome).supply = w.supply := by
  cases outcome <;> rfl

namespace Follows

theorem holding (h : Follows w t) : w.supply.holding = t.supply.holding :=
  congrArg Supply.holding h.supply

theorem storing_eq_none (h : Follows w t) (hc : t.closing = none) : w.storing = none := by
  have hs := h.storing
  rw [hc] at hs
  exact Option.map_eq_none_iff.mp hs

theorem exists_storing (h : Follows w t) {callers : List Nat} {outcome : Except Failure Snapshot}
    (hc : t.closing = some (callers, outcome)) :
    ∃ askers snapshot, w.storing = some (askers, snapshot) ∧ askers.length = callers.length ∧
      outcome = .ok snapshot := by
  have hs := h.storing
  rw [hc] at hs
  obtain ⟨⟨askers, snapshot⟩, he, hpair⟩ := Option.map_eq_some_iff.mp hs
  exact ⟨askers, snapshot, he, (Prod.mk.inj hpair).1, (Prod.mk.inj hpair).2.symm⟩

theorem join (h : Follows w t) (ho : t.Orderly) (asker : Asker) :
    Follows (w.join asker) (t.take (t.supply.force t.count)) := by
  cases hc : t.closing with
  | none =>
    rw [ho.take_force_eq hc, join_of_storing_eq_none (h.storing_eq_none hc)]
    refine ⟨?_, h.storing⟩
    have hforce : w.supply.anonymous.force () = t.supply.anonymous.force () := by rw [h.supply]
    rw [w.supply.force_anonymous asker, t.supply.force_anonymous t.count] at hforce
    exact (Prod.mk.inj hforce).1
  | some c =>
    obtain ⟨callers, outcome⟩ := c
    obtain ⟨askers, snapshot, hs, hlength, rfl⟩ := h.exists_storing hc
    rw [Traffic.take_force_of_closing hc, join_of_storing hs]
    refine ⟨h.supply, ?_⟩
    simp [hlength]

theorem visit (h : Follows w t) (ho : t.Orderly) (now : Number) :
    Follows (w.visit now) (t.step (.ensure now)) := by
  cases hcurrent : t.supply.holding.current? now with
  | none =>
    have hvisit : w.visit now = w.join .visitor := by
      unfold Watch.visit
      rw [Supply.ensure, h.holding, hcurrent]
      split
      · rfl
      · rename_i hs
        exact (join_of_storing_eq_none hs .visitor).symm
    rw [hvisit, Traffic.step_ensure_of_outdated hcurrent]
    exact h.join ho .visitor
  | some snapshot =>
    have hvisit : w.visit now = w := by
      unfold Watch.visit
      rw [Supply.ensure, h.holding, hcurrent]
      split <;> rfl
    rw [hvisit, Traffic.step_ensure_of_current hcurrent]
    exact ⟨h.supply, h.storing⟩

theorem storing_of_mem (h : Follows w t) (ho : t.Orderly) {errand : Errand} (hm : errand ∈ t.wire) :
    w.storing = none := by
  apply h.storing_eq_none
  cases hc : t.closing with
  | none => rfl
  | some c =>
    have hidle := ho.closing (by rw [hc]; rfl)
    rw [ho.wire, Supply.outstanding_of_idle hidle] at hm
    cases hm

theorem outstanding (h : Follows w t) (ho : t.Orderly) : w.supply.outstanding = t.wire := by
  rw [ho.wire]
  exact Supply.outstanding_eq_of_anonymous h.supply

theorem probe (h : Follows w t) (ho : t.Orderly) (now : Number)
    (answer : Except Failure (Option String)) :
    Follows (w.probe now answer) (t.run (w.traffic (.probe now answer))) := by
  by_cases hm : Errand.probe ∈ t.wire
  · have hs := h.storing_of_mem ho hm
    have hstep : t.step (.probe now answer) = t.receive .probe (t.supply.probed now answer) :=
      if_pos hm
    have hsame : w.supply.anonymous.probed now answer = t.supply.anonymous.probed now answer := by
      rw [h.supply]
    rw [Supply.probed_anonymous, Supply.probed_anonymous] at hsame
    unfold Watch.traffic Watch.probe Traffic.run
    rw [List.foldl_cons, hstep]
    generalize w.supply.probed now answer = told at hsame
    generalize t.supply.probed now answer = heard at hsame
    obtain ⟨supply, progress, notices⟩ := told
    obtain ⟨other, advance, more⟩ := heard
    obtain ⟨hsupply, hprogress⟩ := Prod.mk.inj hsame
    rcases Supply.Progress.cases_of_map_eq (Prod.mk.inj hprogress).1 with
      ⟨rfl, rfl⟩ | ⟨rfl, rfl⟩ | ⟨askers, callers, outcome, rfl, rfl, -⟩
    · exact ⟨hsupply, h.storing⟩
    · exact ⟨hsupply, h.storing⟩
    · -- Both sides are at rest: the traffic after its end, the watch at once.
      refine ⟨(congrArg Supply.anonymous (supply_settle _ askers outcome)).trans hsupply, ?_⟩
      rw [storing_settle, hs]
      rfl
  · have hno : .probe ∉ w.supply.outstanding := by rwa [h.outstanding ho]
    have hstay : t.step (.probe now answer) = t := if_neg hm
    rw [Watch.traffic, Watch.probe, Supply.probed_of_notMem hno, Traffic.run, List.foldl_cons, hstay]
    exact h

theorem download (h : Follows w t) (ho : t.Orderly) (now : Number)
    (answer : Except Failure Bytes) :
    Follows (w.download now answer) (t.run (w.traffic (.download now answer))) := by
  by_cases hm : Errand.download ∈ t.wire
  · have hs := h.storing_of_mem ho hm
    have hstep : t.step (.download now answer) =
        t.receive .download (t.supply.downloaded now answer) := if_pos hm
    have hsame : w.supply.anonymous.downloaded now answer =
        t.supply.anonymous.downloaded now answer := by rw [h.supply]
    rw [Supply.downloaded_anonymous, Supply.downloaded_anonymous] at hsame
    -- Both supplies are told the same but for the names of those who wait, so they go on alike.
    unfold Watch.traffic Watch.download Traffic.run
    rw [List.foldl_cons, hstep]
    generalize w.supply.downloaded now answer = told at hsame
    generalize t.supply.downloaded now answer = heard at hsame
    obtain ⟨supply, progress, notices⟩ := told
    obtain ⟨other, advance, more⟩ := heard
    obtain ⟨hsupply, hprogress⟩ := Prod.mk.inj hsame
    rcases Supply.Progress.cases_of_map_eq (Prod.mk.inj hprogress).1 with
      ⟨rfl, rfl⟩ | ⟨rfl, rfl⟩ | ⟨askers, callers, outcome, rfl, rfl, hlength⟩
    · exact ⟨hsupply, h.storing⟩
    · exact ⟨hsupply, h.storing⟩
    · cases outcome with
      | error failure =>
        refine ⟨hsupply, ?_⟩
        rw [hs]
        rfl
      | ok snapshot => exact ⟨hsupply, congrArg (fun n => some (n, Except.ok snapshot)) hlength⟩
  · have hno : .download ∉ w.supply.outstanding := by rwa [h.outstanding ho]
    have hstay : t.step (.download now answer) = t := if_neg hm
    rw [Watch.traffic, Watch.download, Supply.downloaded_of_notMem hno, Traffic.run,
      List.foldl_cons, hstay]
    exact h

theorem close (h : Follows w t) : Follows w.close t.close := by
  unfold Watch.close Traffic.close
  cases hc : t.closing with
  | none =>
    rw [h.storing_eq_none hc]
    exact h
  | some c =>
    obtain ⟨callers, outcome⟩ := c
    obtain ⟨askers, snapshot, hs, -, rfl⟩ := h.exists_storing hc
    rw [hs]
    exact ⟨h.supply, rfl⟩

theorem step (h : Follows w t) (ho : t.Orderly) (event : Event) :
    Follows (w.step event) (t.run (w.traffic event)) := by
  cases event with
  | visit now => exact h.visit ho now
  | refresh => exact h.join ho (.watcher w.version?)
  | probe now answer => exact h.probe ho now answer
  | download now answer => exact h.download ho now answer
  | stored => exact h.close

theorem run (h : Follows w t) (ho : t.Orderly) (events : List Event) :
    Follows (w.run events) (t.run (w.trafficOf events)) := by
  induction events generalizing w t with
  | nil => exact h
  | cons event events ih =>
    rw [trafficOf, Traffic.run_append]
    exact ih (h.step ho event) (ho.run _)

end Follows

/-- What requests and the refresh in the background do to the supply is what calls do to it. -/
theorem follows_run (holding : Holding) (events : List Event) :
    Follows ((begun holding).run events)
      ((Traffic.opened holding).run ((begun holding).trafficOf events)) :=
  Follows.run ⟨rfl, rfl⟩ (.opened holding) events

end Watch

end DomainRules
