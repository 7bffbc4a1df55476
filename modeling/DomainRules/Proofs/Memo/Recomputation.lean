import DomainRules.Proofs.Memo.Run

namespace DomainRules.Memo

variable {ι : Type}

def Event.passed? : Event ι → Option String
  | .call _ _ _ fingerprint => some fingerprint
  | .keep _ _ _ => none
  | .close _ => none
  | .set _ _ _ fingerprint => some fingerprint
  | .sweep _ => none

def passedBy (events : List (Event ι)) : List String := events.filterMap Event.passed?

theorem passedBy_concat (events : List (Event ι)) (event : Event ι) :
    passedBy (events ++ [event]) = passedBy events ++ event.passed?.toList := by
  rw [passedBy, List.filterMap_append, List.filterMap_cons]
  cases event.passed? <;> rfl

/-- No version is passed again once another one was passed after it. -/
def MovesForward (versions : List String) : Prop :=
  ∀ version other, [version, other, version].Sublist versions → other = version

theorem sublist_pair_of_mem {a b : String} {versions : List String} (ha : a ∈ versions)
    (hb : b ∈ versions) (hne : a ≠ b) :
    [a, b].Sublist versions ∨ [b, a].Sublist versions := by
  induction versions with
  | nil => cases ha
  | cons v versions ih =>
    rcases List.mem_cons.mp ha with rfl | hlater
    · have hrest := (List.mem_cons.mp hb).resolve_left (Ne.symm hne)
      exact .inl ((List.singleton_sublist.mpr hrest).cons_cons a)
    · rcases List.mem_cons.mp hb with rfl | hrest
      · exact .inr ((List.singleton_sublist.mpr hlater).cons_cons b)
      · exact (ih hlater hrest).imp (·.cons v) (·.cons v)

theorem MovesForward.older {a b : String} {versions : List String}
    (h : MovesForward (versions ++ [b])) (ha : a ∈ versions) (hb : b ∈ versions) (hne : a ≠ b) :
    [a, b].Sublist versions := by
  refine (sublist_pair_of_mem ha hb hne).resolve_right fun hback => hne ?_
  exact h b a (hback.append (List.Sublist.refl [b]))

theorem mem_of_lastVersion {key : String} {stored : List (String × Option String)}
    {version : Option String} (h : lastVersion key stored = some version) :
    (key, version) ∈ stored := by
  obtain ⟨s, hs, rfl⟩ := Option.map_eq_some_iff.mp h
  obtain ⟨hmem, hkey⟩ := List.mem_filter.mp (List.mem_of_getLast? hs)
  have hk : s.1 = key := by simpa using hkey
  rw [← hk]
  exact hmem

theorem exists_lastVersion {key : String} {stored : List (String × Option String)}
    {version : Option String} (h : (key, version) ∈ stored) :
    ∃ last, lastVersion key stored = some last := by
  have hmem : (key, version) ∈ stored.filter (·.1 = key) :=
    List.mem_filter.mpr ⟨h, by simp⟩
  have hne : stored.filter (·.1 = key) ≠ [] := List.ne_nil_of_mem hmem
  exact ⟨_, by rw [lastVersion, List.getLast?_eq_some_getLast hne]; rfl⟩

theorem fingerprint_of_mem_step {memo : Memo ι} {event : Event ι} {c : Computation ι}
    (h : c ∈ (memo.step event).running) :
    (∃ d ∈ memo.running, c.fingerprint = d.fingerprint) ∨
      ∃ version, event.passed? = some version ∧ c.fingerprint = some version := by
  cases event with
  | call now caller key fingerprint =>
    rw [step] at h
    rcases call_cases memo now caller key (some fingerprint) with
      ⟨_, _, _, hrunning⟩ | ⟨_, _, hrunning⟩ | ⟨_, _, hrunning⟩
    · rw [hrunning] at h
      exact .inl ⟨c, h, rfl⟩
    · rw [hrunning] at h
      rcases mem_join h with h | ⟨d, hd, -, rfl⟩
      · exact .inl ⟨c, h, rfl⟩
      · exact .inl ⟨d, hd, rfl⟩
    · rw [hrunning] at h
      rcases List.mem_append.mp h with h | h
      · exact .inl ⟨c, h, rfl⟩
      · rw [List.mem_singleton.mp h]
        exact .inr ⟨fingerprint, rfl, rfl⟩
  | keep now name text =>
    rw [step] at h
    split at h <;> exact .inl ⟨c, h, rfl⟩
  | close name => exact .inl ⟨c, (List.mem_filter.mp h).1, rfl⟩
  | set now key text fingerprint => exact .inl ⟨c, h, rfl⟩
  | sweep now => exact .inl ⟨c, h, rfl⟩

structure Passed (memo : Memo ι) (events : List (Event ι)) : Prop where
  running : ∀ c ∈ (memo.run events).running, ∃ version ∈ passedBy events,
    c.fingerprint = some version
  stored : ∀ s ∈ memo.storedBy events, ∃ version ∈ passedBy events, s.2 = some version

theorem Passed.concat {memo : Memo ι} {events : List (Event ι)} (h : Passed memo events)
    (event : Event ι) : Passed memo (events ++ [event]) where
  running c hc := by
    rw [run_concat] at hc
    rw [passedBy_concat]
    -- What runs after the event ran before, or was begun by it.
    rcases fingerprint_of_mem_step hc with ⟨d, hd, he⟩ | ⟨version, hv, he⟩
    · obtain ⟨version, hmem, hversion⟩ := h.running d hd
      exact ⟨version, List.mem_append_left _ hmem, he.trans hversion⟩
    · exact ⟨version, List.mem_append_right _ (by simp [hv]), he⟩
  stored s hs := by
    rw [storedBy_concat] at hs
    rw [passedBy_concat]
    rcases List.mem_append.mp hs with hs | hs
    · obtain ⟨version, hmem, hversion⟩ := h.stored s hs
      exact ⟨version, List.mem_append_left _ hmem, hversion⟩
    · rw [Option.mem_toList] at hs
      cases event with
      | call now caller key fingerprint => cases hs
      | close name => cases hs
      | sweep now => cases hs
      | set now key text fingerprint =>
        cases hs
        exact ⟨fingerprint, List.mem_append_right _ List.mem_cons_self, rfl⟩
      | keep now name text =>
        obtain ⟨c, hc, rfl⟩ := Option.map_eq_some_iff.mp hs
        obtain ⟨version, hmem, hversion⟩ := h.running c (List.mem_of_find?_eq_some hc)
        exact ⟨version, List.mem_append_left _ hmem, hversion⟩

theorem Passed.run (lifetime bound : Nat) (events : List (Event ι)) :
    Passed (opened ι lifetime bound) events := by
  induction events using List.reverseRecOn with
  | nil =>
    refine ⟨fun c hc => ?_, fun s hs => ?_⟩
    · cases hc
    · cases hs
  | append_singleton events event ih => exact ih.concat event

theorem Store.get_eq_none_iff {store : Store} {now : Number} (hf : store.isFresh now = true)
    (key : String) (fingerprint : Option String) :
    (store.get now key fingerprint).2 = none ↔ store.version? key ≠ some fingerprint := by
  unfold get version?
  cases hk : store.find? key with
  | none => simp
  | some k =>
    have hage : store.isExpired now k = false := by
      simpa using List.all_eq_true.mp hf k (mem_of_find? hk).1
    simp [hage]

theorem answer_started_iff (memo : Memo ι) (now : Number) (caller : ι) (key : String)
    (fingerprint : Option String) :
    (memo.call now caller key fingerprint).2 = .started ↔
      (memo.store.get now key fingerprint).2 = none ∧
        ∀ c ∈ memo.running, c.identity ≠ identity key fingerprint := by
  unfold call
  rcases hget : memo.store.get now key fingerprint with ⟨store, text?⟩
  cases text? with
  | some text => simp
  | none =>
    by_cases hany : memo.running.any (·.identity = identity key fingerprint) = true
    · obtain ⟨c, hc, hname⟩ := List.any_eq_true.mp hany
      have hruns : c.identity = identity key fingerprint := of_decide_eq_true hname
      simp only [hany, if_true, reduceCtorEq, false_iff]
      exact fun h => h.2 c hc hruns
    · have hnone : ∀ c ∈ memo.running, c.identity ≠ identity key fingerprint := fun c hc he =>
        hany (List.any_eq_true.mpr ⟨c, hc, decide_eq_true he⟩)
      simp only [hany, Bool.false_eq_true, if_false, true_and, true_iff]
      exact hnone

/-- A text was stored under a key for a version, nothing was lost, and the versions that are passed
move forward. Then a call for that text starts another computation exactly if the text stored last
under the key is of a version that was passed before, and no computation of its name runs. -/
theorem started_iff_overtaken (lifetime bound : Nat) {events : List (Event ι)} {now : Number}
    {caller : ι} {key fingerprint : String}
    (hforward : MovesForward (passedBy (events ++ [.call now caller key fingerprint])))
    (hspared : (opened ι lifetime bound).sparesAll
      (events ++ [.call now caller key fingerprint]) = true)
    (hstored : (key, some fingerprint) ∈ (opened ι lifetime bound).storedBy events) :
    let memo := (opened ι lifetime bound).run events
    (memo.call now caller key (some fingerprint)).2 = .started ↔
      (∃ older, lastVersion key ((opened ι lifetime bound).storedBy events) = some (some older) ∧
        older ≠ fingerprint ∧ [older, fingerprint].Sublist (passedBy events)) ∧
      ∀ c ∈ memo.running, c.identity ≠ identity key (some fingerprint) := by
  intro memo
  have hpassed := Passed.run lifetime bound events
  rw [sparesAll_concat, Bool.and_eq_true] at hspared
  rw [passedBy_concat] at hforward
  rw [answer_started_iff, Store.get_eq_none_iff hspared.2, version?_run lifetime bound hspared.1]
  refine and_congr_left fun _ => ?_
  constructor
  · intro hother
    -- Some version is stored last under the key. It was passed, and being another one it is older.
    obtain ⟨last, hlast⟩ := exists_lastVersion hstored
    obtain ⟨older, hmem, hversion⟩ := hpassed.stored _ (mem_of_lastVersion hlast)
    obtain ⟨own, hown, he⟩ := hpassed.stored _ hstored
    have hsame : own = fingerprint := (Option.some.inj he).symm
    have hlast' : lastVersion key ((opened ι lifetime bound).storedBy events) =
        some (some older) := hlast.trans (congrArg some hversion)
    have hne : older ≠ fingerprint := fun h => hother (h ▸ hlast')
    exact ⟨older, hlast', hne, hforward.older hmem (hsame ▸ hown) hne⟩
  · rintro ⟨older, hlast, hne, -⟩ hsame
    rw [hlast, Option.some.injEq, Option.some.injEq] at hsame
    exact hne hsame

def inOrder : List (Event Nat) :=
  [.call (.finite 1) 1 "surge:google" "v1", .call (.finite 2) 2 "surge:google" "v2",
    .keep (.finite 3) "v1\nsurge:google" "old", .close "v1\nsurge:google",
    .keep (.finite 4) "v2\nsurge:google" "new", .close "v2\nsurge:google"]

theorem movesForward_one_two_two : MovesForward ["v1", "v2", "v2"] := by
  intro version other h
  have heq : [version, other, version] = ["v1", "v2", "v2"] := h.eq_of_length rfl
  simp only [List.cons.injEq, and_true] at heq
  exact heq.2.1.trans heq.2.2.symm

theorem started_iff_overtaken_inOrder :
    MovesForward (passedBy (inOrder ++ [.call (.finite 5) 3 "surge:google" "v2"])) ∧
      (opened Nat 60000 10000).sparesAll
        (inOrder ++ [.call (.finite 5) 3 "surge:google" "v2"]) = true ∧
      ("surge:google", some "v2") ∈ (opened Nat 60000 10000).storedBy inOrder ∧
      (((opened Nat 60000 10000).run inOrder).call (.finite 5) 3 "surge:google" (some "v2")).2 ≠
        .started := by
  have hforward : MovesForward
      (passedBy (inOrder ++ [.call (.finite 5) 3 "surge:google" "v2"])) := movesForward_one_two_two
  have hspared : (opened Nat 60000 10000).sparesAll
      (inOrder ++ [.call (.finite 5) 3 "surge:google" "v2"]) = true := by decide +kernel
  have hstored : ("surge:google", some "v2") ∈ (opened Nat 60000 10000).storedBy inOrder := by
    decide +kernel
  refine ⟨hforward, hspared, hstored, fun h => ?_⟩
  obtain ⟨⟨older, hlast, hne, -⟩, -⟩ :=
    (started_iff_overtaken 60000 10000 hforward hspared hstored).mp h
  have hnewest : lastVersion "surge:google" ((opened Nat 60000 10000).storedBy inOrder) =
      some (some "v2") := by decide +kernel
  rw [hnewest] at hlast
  exact hne (Option.some.inj (Option.some.inj hlast)).symm

/-- Two versions are computed, and the older one is done last. -/
def overtaken : List (Event Nat) :=
  [.call (.finite 1) 1 "surge:google" "v1", .call (.finite 2) 2 "surge:google" "v2",
    .keep (.finite 3) "v2\nsurge:google" "new", .close "v2\nsurge:google",
    .keep (.finite 4) "v1\nsurge:google" "old", .close "v1\nsurge:google"]

/-- The text of the newest version was computed and nothing was lost, yet it is computed again. -/
theorem started_again_overtaken :
    MovesForward (passedBy (overtaken ++ [.call (.finite 5) 3 "surge:google" "v2"])) ∧
      (opened Nat 60000 10000).sparesAll
        (overtaken ++ [.call (.finite 5) 3 "surge:google" "v2"]) = true ∧
      ("surge:google", some "v2") ∈ (opened Nat 60000 10000).storedBy overtaken ∧
      (((opened Nat 60000 10000).run overtaken).call (.finite 5) 3 "surge:google" (some "v2")).2 =
        .started :=
  ⟨movesForward_one_two_two, by decide +kernel, by decide +kernel, by decide +kernel⟩

end DomainRules.Memo
