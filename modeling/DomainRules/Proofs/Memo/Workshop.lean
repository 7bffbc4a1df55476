import DomainRules.Proofs.Memo.Run

/-!
The workshop of the memo: computations from their start to their end, and the calls that wait for
them. What can be joined is what the memo keeps as running; what is under way is told apart from it
here, since an end strikes out whatever runs under its name.
-/
namespace DomainRules.Memo

/-- A computation that was started and has not ended. Its outcome is known before it ends for those
who wait. -/
structure Work where
  owner : Nat
  key : String
  fingerprint : String
  outcome : Option (Except Failure String) := none

namespace Work

def pair (work : Work) : String × String := (work.key, work.fingerprint)

def name (work : Work) : String := identity work.key (some work.fingerprint)

def task (work : Work) : String × Option String × Nat :=
  (work.key, some work.fingerprint, work.owner)

end Work

def Computation.task (c : Computation Nat) : String × Option String × Nat :=
  (c.key, c.fingerprint, c.owner)

/-- How a call settled, and whether its text was kept already when it came. -/
structure Settled where
  caller : Nat
  outcome : Except Failure String
  isCached : Bool

/-- The memo with all calls and computations. A computation goes by the number of its owner. -/
structure Workshop where
  memo : Memo Nat
  /-- The number of calls so far, which is the number of the next one. -/
  count : Nat := 0
  works : List Work := []
  /-- Every call that waits or has waited, with the owner of the computation. -/
  attached : List (Nat × Nat) := []
  ended : List (Nat × Except Failure String) := []
  settled : List Settled := []

namespace Workshop

inductive Event where
  | call (now : Number) (key fingerprint : String)
  | succeed (now : Number) (owner : Nat) (text : String)
  | fail (owner : Nat) (failure : Failure)
  /-- A computation whose outcome is known ends for all who wait for it. -/
  | close (owner : Nat)
  | set (now : Number) (key text fingerprint : String)
  | sweep (now : Number)

def Event.asked? : Event → Option String
  | .call _ _ fingerprint => some fingerprint
  | _ => none

def opened (lifetime bound : Nat) : Workshop := { memo := Memo.opened Nat lifetime bound }

def work? (w : Workshop) (owner : Nat) : Option Work := w.works.find? (·.owner = owner)

def underway (w : Workshop) : List Nat := w.works.map (·.owner)

def waiting (w : Workshop) : List Nat :=
  (w.attached.filter (·.2 ∈ w.underway)).map (·.1)

def call (w : Workshop) (now : Number) (key fingerprint : String) : Workshop :=
  let told := w.memo.call now w.count key (some fingerprint)
  let next := { w with memo := told.1, count := w.count + 1 }
  match told.2 with
  | .kept text => { next with settled := w.settled ++ [⟨w.count, .ok text, true⟩] }
  | .joined => match w.memo.running? (identity key (some fingerprint)) with
    | some c => { next with attached := w.attached ++ [(w.count, c.owner)] }
    | none => next
  | .started =>
    { next with
        works := w.works ++ [{ owner := w.count, key, fingerprint }]
        attached := w.attached ++ [(w.count, w.count)] }

def note (w : Workshop) (owner : Nat) (outcome : Except Failure String) : Workshop :=
  { w with works := w.works.map fun work =>
      if work.owner = owner then { work with outcome := some outcome } else work }

def succeed (w : Workshop) (now : Number) (owner : Nat) (text : String) : Workshop :=
  match w.work? owner with
  | some work =>
    if work.outcome.isSome then w
    else
      { w.note owner (.ok text) with
          memo := w.memo.set now work.key text (some work.fingerprint) }
  | none => w

def fail (w : Workshop) (owner : Nat) (failure : Failure) : Workshop :=
  match w.work? owner with
  | some work => if work.outcome.isSome then w else w.note owner (.error failure)
  | none => w

/-- A computation ends: what runs under its name can no longer be joined, and all who wait for it
settle. -/
def finish (w : Workshop) (work : Work) (outcome : Except Failure String) : Workshop :=
  { w with
      memo := w.memo.step (.close work.name)
      works := w.works.filter (·.owner ≠ work.owner)
      ended := w.ended ++ [(work.owner, outcome)]
      settled := w.settled ++ (w.attached.filter (·.2 = work.owner)).map
        fun attached => ⟨attached.1, outcome, false⟩ }

def close (w : Workshop) (owner : Nat) : Workshop :=
  match w.work? owner with
  | some work => match work.outcome with
    | some outcome => w.finish work outcome
    | none => w
  | none => w

def step (w : Workshop) : Event → Workshop
  | .call now key fingerprint => w.call now key fingerprint
  | .succeed now owner text => w.succeed now owner text
  | .fail owner failure => w.fail owner failure
  | .close owner => w.close owner
  | .set now key text fingerprint => { w with memo := w.memo.set now key text (some fingerprint) }
  | .sweep now => { w with memo := w.memo.sweep now }

def run (w : Workshop) (events : List Event) : Workshop := events.foldl step w

theorem run_concat (w : Workshop) (events : List Event) (event : Event) :
    w.run (events ++ [event]) = (w.run events).step event := by
  rw [run, List.foldl_append]
  rfl

/-- What an event can do, as far as calls and computations are concerned. -/
inductive Turn (w : Workshop) (event : Event) : Workshop → Prop where
  | found {memo : Memo Nat} {text : String} (hrunning : memo.running = w.memo.running) :
    Turn w event { w with
      memo
      count := w.count + 1
      settled := w.settled ++ [⟨w.count, .ok text, true⟩] }
  | joined {memo : Memo Nat} {c : Computation Nat} (hc : c ∈ w.memo.running)
    (hrunning : memo.running.map Computation.task = w.memo.running.map Computation.task) :
    Turn w event { w with
      memo
      count := w.count + 1
      attached := w.attached ++ [(w.count, c.owner)] }
  | started {memo : Memo Nat} {key fingerprint : String}
    (hasked : event.asked? = some fingerprint)
    (hnew : ∀ c ∈ w.memo.running, c.identity ≠ identity key (some fingerprint))
    (hrunning : memo.running.map Computation.task =
      w.memo.running.map Computation.task ++ [(key, some fingerprint, w.count)]) :
    Turn w event { w with
      memo
      count := w.count + 1
      works := w.works ++ [{ owner := w.count, key, fingerprint }]
      attached := w.attached ++ [(w.count, w.count)] }
  /-- Nobody calls and nothing ends. At most an outcome becomes known. -/
  | passed {memo : Memo Nat} {works : List Work} (hrunning : memo.running = w.memo.running)
    (hworks : works.map Work.task = w.works.map Work.task) :
    Turn w event { w with memo, works }
  | ended {work : Work} {outcome : Except Failure String} (hwork : work ∈ w.works) :
    Turn w event (w.finish work outcome)

theorem map_task_join (caller : Nat) (name : String) (running : List (Computation Nat)) :
    (join caller name running).map Computation.task = running.map Computation.task := by
  induction running with
  | nil => rfl
  | cons c running ih =>
    rw [join]
    split
    · rfl
    · rw [List.map_cons, List.map_cons, ih]

theorem map_task_note (w : Workshop) (owner : Nat) (outcome : Except Failure String) :
    (w.note owner outcome).works.map Work.task = w.works.map Work.task := by
  rw [note, List.map_map]
  refine List.map_congr_left fun work _ => ?_
  dsimp only [Function.comp_apply]
  split <;> rfl

theorem turn_call (w : Workshop) (now : Number) (key fingerprint : String) :
    Turn w (.call now key fingerprint) (w.call now key fingerprint) := by
  unfold call
  dsimp only
  rcases call_cases w.memo now w.count key (some fingerprint) with
    ⟨text, -, hanswer, hrunning⟩ | ⟨hanswer, ⟨c, hc, hname⟩, hrunning⟩ | ⟨hanswer, hnew, hrunning⟩
  · rw [hanswer]
    exact .found hrunning
  · rw [hanswer]
    dsimp only
    cases hfind : w.memo.running? (identity key (some fingerprint)) with
    | none => exact absurd hname (by simpa using List.find?_eq_none.mp hfind c hc)
    | some found =>
      refine .joined (List.mem_of_find?_eq_some hfind) ?_
      rw [hrunning, map_task_join]
  · rw [hanswer]
    refine .started rfl hnew ?_
    rw [hrunning, List.map_append]
    rfl

theorem turn_step (w : Workshop) (event : Event) : Turn w event (w.step event) := by
  have hstay : Turn w event w := .passed rfl rfl
  -- An event for a computation that is not under way, or has its outcome, changes nothing.
  cases event with
  | call now key fingerprint => exact turn_call w now key fingerprint
  | set now key text fingerprint => exact .passed rfl rfl
  | sweep now => exact .passed rfl rfl
  | succeed now owner text =>
    rw [step, succeed]
    split
    · split
      · exact hstay
      · exact .passed rfl (map_task_note w owner (.ok text))
    · exact hstay
  | fail owner failure =>
    rw [step, fail]
    split
    · split
      · exact hstay
      · exact .passed rfl (map_task_note w owner (.error failure))
    · exact hstay
  | close owner =>
    rw [step, close]
    split
    · rename_i work hwork
      split
      · exact .ended (List.mem_of_find?_eq_some hwork)
      · exact hstay
    · exact hstay

end Workshop

end DomainRules.Memo
