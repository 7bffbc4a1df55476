import DomainRules.Proofs.Memo.Run

namespace DomainRules.Memo

inductive Access where
  | stored (k : Kept)
  | asked (key : String) (fingerprint : Option String) (now : Number)
  | swept (now : Number)
  deriving DecidableEq, Repr

namespace Access

def now : Access → Number
  | .stored k => k.since
  | .asked _ _ now => now
  | .swept now => now

def onStore (store : Store) : Access → Store
  | .stored k => store.set k.since k.key k.text k.fingerprint
  | .asked key fingerprint now => (store.get now key fingerprint).1
  | .swept now => store.sweep now

end Access

/-- Memoised computations, and a clock that counts least positive numbers. -/
structure Clocked (ι : Type) where
  memo : Memo ι
  clock : Nat

namespace Clocked

variable {ι : Type}

inductive Act (ι : Type) where
  | pass (units : Nat)
  /-- A text is asked for, and not computed if it is not there. -/
  | get (key fingerprint : String)
  | call (caller : ι) (key fingerprint : String)
  /-- The computation of a name has its text, which is kept. -/
  | keep (name text : String)
  | close (name : String)
  | set (key text fingerprint : String)
  | sweep

def opened (ι : Type) (lifetime bound start : Nat) : Clocked ι :=
  { memo := .opened ι lifetime bound, clock := start }

def now (s : Clocked ι) : Number := .finite s.clock

def step (s : Clocked ι) : Act ι → Clocked ι
  | .pass units => { s with clock := s.clock + units }
  | .get key fingerprint =>
    { s with memo.store := (s.memo.store.get s.now key (some fingerprint)).1 }
  | .call caller key fingerprint => { s with memo := s.memo.step (.call s.now caller key fingerprint) }
  | .keep name text => { s with memo := s.memo.step (.keep s.now name text) }
  | .close name => { s with memo := s.memo.step (.close name) }
  | .set key text fingerprint => { s with memo := s.memo.step (.set s.now key text fingerprint) }
  | .sweep => { s with memo := s.memo.step (.sweep s.now) }

def run (s : Clocked ι) (acts : List (Act ι)) : Clocked ι := acts.foldl step s

def access? (s : Clocked ι) : Act ι → Option Access
  | .pass _ => none
  | .get key fingerprint => some (.asked key (some fingerprint) s.now)
  | .call _ key fingerprint => some (.asked key (some fingerprint) s.now)
  | .keep name text => (s.memo.running? name).map fun c =>
      .stored { key := c.key, text, fingerprint := c.fingerprint, since := s.now }
  | .close _ => none
  | .set key text fingerprint =>
    some (.stored { key, text, fingerprint := some fingerprint, since := s.now })
  | .sweep => some (.swept s.now)

def accesses (s : Clocked ι) (acts : List (Act ι)) : List Access :=
  History.seen step access? s acts

theorem run_concat (s : Clocked ι) (acts : List (Act ι)) (act : Act ι) :
    s.run (acts ++ [act]) = (s.run acts).step act := by
  rw [run, List.foldl_append]
  rfl

theorem accesses_concat (s : Clocked ι) (acts : List (Act ι)) (act : Act ι) :
    s.accesses (acts ++ [act]) = s.accesses acts ++ ((s.run acts).access? act).toList :=
  History.seen_concat step access? s acts act

theorem step_cases (s : Clocked ι) (act : Act ι) :
    (∃ access, s.access? act = some access ∧ access.now = s.now ∧
      (s.step act).memo.store = access.onStore s.memo.store ∧ (s.step act).clock = s.clock) ∨
    (s.access? act = none ∧ (s.step act).memo.store = s.memo.store ∧
      s.clock ≤ (s.step act).clock) := by
  cases act with
  | pass units => exact .inr ⟨rfl, rfl, Nat.le_add_right s.clock units⟩
  | get key fingerprint => exact .inl ⟨_, rfl, rfl, rfl, rfl⟩
  | call caller key fingerprint =>
    exact .inl ⟨_, rfl, rfl, store_call s.memo s.now caller key (some fingerprint), rfl⟩
  | keep name text =>
    rw [step, Memo.step, access?]
    cases s.memo.running? name with
    | none => exact .inr ⟨rfl, rfl, Nat.le_refl s.clock⟩
    | some c => exact .inl ⟨_, rfl, rfl, rfl, rfl⟩
  | close name => exact .inr ⟨rfl, rfl, Nat.le_refl s.clock⟩
  | set key text fingerprint => exact .inl ⟨_, rfl, rfl, rfl, rfl⟩
  | sweep => exact .inl ⟨_, rfl, rfl, rfl, rfl⟩

end Clocked

section Bound

variable {store : Store} {key : String}

theorem Store.size_erase_lt {k : Kept} (h : store.find? key = some k) :
    (store.erase key).size < store.size := by
  obtain ⟨hmem, hkey⟩ := mem_of_find? h
  apply List.length_filter_lt_length_iff_exists.mpr
  exact ⟨k, hmem, by simpa using hkey⟩

theorem Store.size_makeRoom_lt (hbound : 1 ≤ store.bound) (hsize : store.size ≤ store.bound) :
    store.makeRoom.size < store.bound := by
  unfold makeRoom
  split
  · rw [size, List.length_drop]
    rw [size] at hsize
    omega
  · omega

theorem Store.size_push (store : Store) (k : Kept) : (store.push k).size = store.size + 1 :=
  List.length_append

theorem Access.limits_onStore (access : Access) (store : Store) :
    (access.onStore store).lifetime = store.lifetime ∧
      (access.onStore store).bound = store.bound := by
  cases access with
  | stored k =>
    rw [onStore, Store.set]
    cases store.find? k.key with
    | none =>
      dsimp only
      rw [Store.makeRoom]
      split <;> exact ⟨rfl, rfl⟩
    | some old => exact ⟨rfl, rfl⟩
  | asked key fingerprint now =>
    rw [onStore, Store.get]
    cases store.find? key with
    | none => exact ⟨rfl, rfl⟩
    | some k =>
      dsimp only
      split <;> exact ⟨rfl, rfl⟩
  | swept now => exact ⟨rfl, rfl⟩

theorem Access.size_onStore_le (access : Access) (hbound : 1 ≤ store.bound)
    (hsize : store.size ≤ store.bound) : (access.onStore store).size ≤ store.bound := by
  cases access with
  | stored k =>
    rw [onStore, Store.set, Store.size_push]
    cases hk : store.find? k.key with
    | none => exact Store.size_makeRoom_lt hbound hsize
    | some old =>
      have herase := Store.size_erase_lt hk
      exact Nat.lt_of_lt_of_le herase hsize
  | asked key fingerprint now =>
    rw [onStore, Store.get]
    cases hk : store.find? key with
    | none => exact hsize
    | some k =>
      have herase := Store.size_erase_lt hk
      dsimp only
      split
      · exact Nat.le_of_lt (Nat.lt_of_lt_of_le herase hsize)
      · dsimp only
        rw [Store.size_push]
        exact Nat.lt_of_lt_of_le herase hsize
  | swept now => exact Nat.le_trans (List.length_filter_le _ _) hsize

end Bound

namespace Clocked

variable {ι : Type}

theorem limits_run (lifetime bound start : Nat) (acts : List (Act ι)) :
    ((opened ι lifetime bound start).run acts).memo.store.lifetime = lifetime ∧
      ((opened ι lifetime bound start).run acts).memo.store.bound = bound := by
  induction acts using List.reverseRecOn with
  | nil => exact ⟨rfl, rfl⟩
  | append_singleton acts act ih =>
    rw [run_concat]
    rcases step_cases ((opened ι lifetime bound start).run acts) act with
      ⟨access, -, -, hstore, -⟩ | ⟨-, hstore, -⟩
    · obtain ⟨hlifetime, hbound⟩ := access.limits_onStore
        ((opened ι lifetime bound start).run acts).memo.store
      rw [hstore, hlifetime, hbound]
      exact ih
    · rw [hstore]
      exact ih

theorem size_run_le {bound : Nat} (hbound : 1 ≤ bound) (lifetime start : Nat)
    (acts : List (Act ι)) :
    ((opened ι lifetime bound start).run acts).memo.store.size ≤ bound := by
  induction acts using List.reverseRecOn with
  | nil => exact Nat.zero_le bound
  | append_singleton acts act ih =>
    have hlimit := (limits_run lifetime bound start acts).2
    rw [run_concat]
    generalize (opened ι lifetime bound start).run acts = s at ih hlimit
    rw [← hlimit] at ih hbound ⊢
    rcases step_cases s act with ⟨access, -, -, hstore, -⟩ | ⟨-, hstore, -⟩
    · rw [hstore]
      exact access.size_onStore_le hbound ih
    · rw [hstore]
      exact ih

end Clocked

end DomainRules.Memo
