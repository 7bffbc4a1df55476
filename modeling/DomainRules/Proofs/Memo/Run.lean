import DomainRules.Proofs.History
import DomainRules.Proofs.Memo.Basic
import Mathlib.Data.List.Induction

namespace DomainRules.Memo

namespace Store

variable {store : Store}

def version? (store : Store) (key : String) : Option (Option String) :=
  (store.find? key).map (·.fingerprint)

def isFresh (store : Store) (now : Number) : Bool := store.kept.all (!store.isExpired now ·)

/-- A text can be stored under a key without another one having to go. -/
def hasRoom (store : Store) (key : String) : Bool :=
  (store.find? key).isSome || !(decide (store.bound ≠ 0 ∧ store.bound ≤ store.size))

theorem find?_push (store : Store) (k : Kept) (key : String) :
    (store.push k).find? key = (store.find? key).or (if k.key = key then some k else none) := by
  rw [find?, push, List.find?_append, find?, List.find?_singleton]
  simp only [decide_eq_true_eq]

theorem find?_erase (store : Store) (other key : String) :
    (store.erase other).find? key = if key = other then none else store.find? key := by
  rw [find?, erase]
  by_cases hk : key = other
  · rw [if_pos hk, List.find?_eq_none]
    intro k hmem
    have hne := (List.mem_filter.mp hmem).2
    simpa [hk] using hne
  · rw [if_neg hk, List.find?_filter, find?]
    congr 1
    funext k
    by_cases hkey : k.key = key
    · simp [hkey, hk]
    · simp [hkey]

theorem find?_get (store : Store) (now : Number) (key : String) (fingerprint : Option String)
    (other : String) :
    (store.get now key fingerprint).1.find? other =
      if other = key then (store.find? key).filter (!store.isExpired now ·)
      else store.find? other := by
  unfold get
  cases hk : store.find? key with
  | none =>
    by_cases ho : other = key
    · rw [if_pos ho, ho]
      exact hk
    · rw [if_neg ho]
  | some k =>
    have hkey := (mem_of_find? hk).2
    by_cases hage : store.isExpired now k = true
    · dsimp only
      rw [if_pos hage, find?_erase, Option.filter_some, hage]
      rfl
    · dsimp only
      rw [if_neg hage, find?_push, find?_erase, Option.filter_some, eq_false_of_ne_true hage]
      by_cases ho : other = key
      · rw [if_pos ho, if_pos (hkey.trans ho.symm), if_pos ho]
        rfl
      · rw [if_neg ho, if_neg fun he => ho (he.symm.trans hkey), if_neg ho, Option.or_none]

theorem version?_get {now : Number} (hf : store.isFresh now = true) (key : String)
    (fingerprint : Option String) (other : String) :
    (store.get now key fingerprint).1.version? other = store.version? other := by
  rw [version?, find?_get, version?]
  by_cases ho : other = key
  · have hfound : (store.find? key).filter (!store.isExpired now ·) = store.find? key := by
      cases hk : store.find? key with
      | none => rfl
      | some k =>
        have hage := List.all_eq_true.mp hf k (mem_of_find? hk).1
        rw [Option.filter_some, hage]
        rfl
    rw [if_pos ho, hfound, ho]
  · rw [if_neg ho]

theorem makeRoom_eq {key : String} (hr : store.hasRoom key = true)
    (hn : store.find? key = none) : store.makeRoom = store := by
  rw [hasRoom, hn, Option.isSome_none, Bool.false_or, Bool.not_eq_true',
    decide_eq_false_iff_not] at hr
  exact if_neg hr

theorem find?_set {key : String} (hr : store.hasRoom key = true) (now : Number) (text : String)
    (fingerprint : Option String) (other : String) :
    (store.set now key text fingerprint).find? other =
      if other = key then some { key, text, fingerprint, since := now } else store.find? other := by
  -- The text that was under the key goes, or room is made for a new one: either way nothing is under
  -- the key, and nothing else has changed.
  have hset : ∀ cleared : Store, cleared.find? key = none →
      (∀ other, other ≠ key → cleared.find? other = store.find? other) →
      (cleared.push { key, text, fingerprint, since := now }).find? other =
        if other = key then some { key, text, fingerprint, since := now }
        else store.find? other := by
    intro cleared hself hothers
    rw [find?_push]
    by_cases ho : other = key
    · rw [ho, hself, if_pos rfl, if_pos rfl]
      rfl
    · rw [hothers other ho, if_neg (Ne.symm ho), Option.or_none, if_neg ho]
  unfold set
  cases hk : store.find? key with
  | none =>
    dsimp only
    rw [makeRoom_eq hr hk]
    exact hset store hk fun _ _ => rfl
  | some k =>
    refine hset (store.erase key) ?_ fun other ho => ?_
    · rw [find?_erase, if_pos rfl]
    · rw [find?_erase, if_neg ho]

theorem version?_set {key : String} (hr : store.hasRoom key = true) (now : Number) (text : String)
    (fingerprint : Option String) (other : String) :
    (store.set now key text fingerprint).version? other =
      if other = key then some fingerprint else store.version? other := by
  rw [version?, find?_set hr, version?]
  split <;> rfl

theorem sweep_eq {now : Number} (hf : store.isFresh now = true) : store.sweep now = store := by
  have hall : store.kept.filter (!store.isExpired now ·) = store.kept :=
    List.filter_eq_self.mpr (List.all_eq_true.mp hf)
  rw [sweep, hall]

end Store

variable {ι : Type}

inductive Event (ι : Type) where
  | call (now : Number) (caller : ι) (key fingerprint : String)
  /-- The computation of a name has its text, which is kept. Others can still join it. -/
  | keep (now : Number) (name text : String)
  /-- The computation of a name ends for all who wait, with its text or with a failure. -/
  | close (name : String)
  | set (now : Number) (key text fingerprint : String)
  | sweep (now : Number)

def opened (ι : Type) (lifetime bound : Nat) : Memo ι := { store := { lifetime, bound } }

def running? (memo : Memo ι) (name : String) : Option (Computation ι) :=
  memo.running.find? (·.identity = name)

def step (memo : Memo ι) : Event ι → Memo ι
  | .call now caller key fingerprint => (memo.call now caller key (some fingerprint)).1
  | .keep now name text => match memo.running? name with
    | some c => memo.set now c.key text c.fingerprint
    | none => memo
  | .close name => { memo with running := memo.running.filter (·.identity ≠ name) }
  | .set now key text fingerprint => memo.set now key text (some fingerprint)
  | .sweep now => memo.sweep now

def run (memo : Memo ι) (events : List (Event ι)) : Memo ι := events.foldl step memo

theorem run_cons (memo : Memo ι) (event : Event ι) (events : List (Event ι)) :
    memo.run (event :: events) = (memo.step event).run events := rfl

theorem run_concat (memo : Memo ι) (events : List (Event ι)) (event : Event ι) :
    memo.run (events ++ [event]) = (memo.run events).step event := by
  rw [run, List.foldl_append]
  rfl

theorem finish_eq_run (memo : Memo ι) (now : Number) {c : Computation ι}
    (hc : memo.running? c.identity = some c) (outcome : Except Failure String) :
    memo.finish now c outcome =
      memo.run (match outcome with
        | .ok text => [.keep now c.identity text, .close c.identity]
        | .error _ => [.close c.identity]) := by
  cases outcome with
  | error failure => rfl
  | ok text =>
    have hkeep : memo.step (.keep now c.identity text) = memo.set now c.key text c.fingerprint := by
      rw [step, hc]
    rw [run_cons, hkeep]
    rfl

def stored? (memo : Memo ι) : Event ι → Option (String × Option String)
  | .call _ _ _ _ => none
  | .keep _ name _ => (memo.running? name).map fun c => (c.key, c.fingerprint)
  | .close _ => none
  | .set _ key _ fingerprint => some (key, some fingerprint)
  | .sweep _ => none

def storedBy (memo : Memo ι) : List (Event ι) → List (String × Option String)
  | [] => []
  | event :: events => (memo.stored? event).toList ++ (memo.step event).storedBy events

theorem storedBy_concat (memo : Memo ι) (events : List (Event ι)) (event : Event ι) :
    memo.storedBy (events ++ [event]) =
      memo.storedBy events ++ ((memo.run events).stored? event).toList := by
  induction events generalizing memo with
  | nil => simp [storedBy, run]
  | cons first events ih =>
    rw [List.cons_append, storedBy, ih, storedBy, run_cons, List.append_assoc]

/-- An event takes away no text, neither for its age nor for want of room. -/
def spares (memo : Memo ι) : Event ι → Bool
  | .call now _ _ _ => memo.store.isFresh now
  | .keep _ name _ => (memo.running? name).all fun c => memo.store.hasRoom c.key
  | .close _ => true
  | .set _ key _ _ => memo.store.hasRoom key
  | .sweep now => memo.store.isFresh now

def sparesAll (memo : Memo ι) : List (Event ι) → Bool
  | [] => true
  | event :: events => memo.spares event && (memo.step event).sparesAll events

theorem sparesAll_concat (memo : Memo ι) (events : List (Event ι)) (event : Event ι) :
    memo.sparesAll (events ++ [event]) =
      (memo.sparesAll events && (memo.run events).spares event) := by
  induction events generalizing memo with
  | nil => simp [sparesAll, run]
  | cons first events ih =>
    rw [List.cons_append, sparesAll, ih, sparesAll, run_cons, Bool.and_assoc]

def lastVersion (key : String) (stored : List (String × Option String)) :
    Option (Option String) :=
  ((stored.filter (·.1 = key)).getLast?).map (·.2)

theorem lastVersion_concat (key : String) (stored : List (String × Option String))
    (s : String × Option String) :
    lastVersion key (stored ++ [s]) = if key = s.1 then some s.2 else lastVersion key stored := by
  rw [lastVersion, History.getLast?_filter_concat]
  by_cases hk : key = s.1
  · rw [if_pos (decide_eq_true hk.symm), if_pos hk]
    rfl
  · rw [if_neg (by simpa using Ne.symm hk), if_neg hk, lastVersion]

theorem version?_step {memo : Memo ι} {event : Event ι} (hs : memo.spares event = true)
    (key : String) {stored : List (String × Option String)}
    (h : memo.store.version? key = lastVersion key stored) :
    (memo.step event).store.version? key =
      lastVersion key (stored ++ (memo.stored? event).toList) := by
  -- Two events store a text. The others could only drop one that is too old, and all are spared.
  cases event with
  | call now caller other fingerprint =>
    have hget := Store.version?_get hs other (some fingerprint) key
    rw [stored?, Option.toList_none, List.append_nil, ← h, step, store_call, hget]
  | close name =>
    rw [stored?, Option.toList_none, List.append_nil, ← h]
    rfl
  | sweep now =>
    rw [stored?, Option.toList_none, List.append_nil, ← h, step, sweep, Store.sweep_eq hs]
  | set now other text fingerprint =>
    have hset := Store.version?_set hs now text (some fingerprint) key
    rw [stored?, Option.toList_some, lastVersion_concat, ← h]
    exact hset
  | keep now name text =>
    rw [step, stored?]
    rw [spares] at hs
    cases hc : memo.running? name with
    | none =>
      rw [Option.map_none, Option.toList_none, List.append_nil]
      exact h
    | some c =>
      rw [hc] at hs
      have hset := Store.version?_set hs now text c.fingerprint key
      rw [Option.map_some, Option.toList_some, lastVersion_concat, ← h]
      exact hset

/-- Under every key stands the version that was stored last, as long as nothing is lost. -/
theorem version?_run (lifetime bound : Nat) {events : List (Event ι)}
    (hs : (opened ι lifetime bound).sparesAll events = true) (key : String) :
    ((opened ι lifetime bound).run events).store.version? key =
      lastVersion key ((opened ι lifetime bound).storedBy events) := by
  -- From the end: what an event stores depends on the computations that run by then.
  induction events using List.reverseRecOn with
  | nil => rfl
  | append_singleton events event ih =>
    rw [sparesAll_concat, Bool.and_eq_true] at hs
    rw [run_concat, storedBy_concat]
    exact version?_step hs.2 key (ih hs.1)

end DomainRules.Memo
