import DomainRules.Proofs.Supply.Watch

namespace DomainRules.Watch

variable {w : Watch}

theorem latest_append (first : Option String) (rs ts : List Replacement) :
    latest first (rs ++ ts) = latest (latest first rs) ts := List.foldl_append

theorem foldl_announce_of_known {version : Option String} {callers : List Asker}
    (h : ∀ known, .watcher known ∈ callers → known = version) (announced : Option String) :
    callers.foldl (Asker.announce version) announced = announced := by
  induction callers with
  | nil => rfl
  | cons caller callers ih =>
    have hrest := ih fun known hk => h known (List.mem_cons_of_mem _ hk)
    cases caller with
    | visitor => exact hrest
    | watcher known =>
      have hk : known = version := h known List.mem_cons_self
      have hno : Asker.announce version announced (.watcher known) = announced := by
        simp [Asker.announce, Chore.isAnnounced, hk]
      rw [List.foldl_cons, hno]
      exact hrest

theorem foldl_announce_of_other {version : Option String} {callers : List Asker}
    (h : ∀ known, .watcher known ∈ callers → known ≠ version) (announced : Option String) :
    callers.foldl (Asker.announce version) announced =
      if callers.any Asker.isWatcher then version else announced := by
  induction callers generalizing announced with
  | nil => rfl
  | cons caller callers ih =>
    have hrest := ih fun known hk => h known (List.mem_cons_of_mem _ hk)
    cases caller with
    | visitor => exact hrest announced
    | watcher known =>
      have hk : version ≠ known := (h known List.mem_cons_self).symm
      have hyes : Asker.announce version announced (.watcher known) = version := by
        simp [Asker.announce, Chore.isAnnounced, hk]
      rw [List.foldl_cons, hyes, hrest]
      simp [Asker.isWatcher]

/-- The version that will have been announced once those who wait for an archive that is held already
have learned of it. -/
def promised (w : Watch) : Option String :=
  match w.storing with
  | some (callers, snapshot) => callers.foldl (Asker.announce snapshot.fingerprint) w.announced
  | none => w.announced

/-- While a refresh runs, what is held is what was held when it began, and everybody in the
background who waits for it knows that version. While an archive is stored nothing else runs. -/
structure Steady (w : Watch) : Prop where
  before : ∀ before callers, w.supply.phase = .probing before callers →
    before = w.supply.holding.snapshot?
  known : ∀ known, .watcher known ∈ w.supply.callers → known = w.version?
  idle : ∀ s, w.storing = some s → w.supply.phase = .idle
  current : ∀ callers snapshot, w.storing = some (callers, snapshot) →
    snapshot.fingerprint = w.version?

theorem Steady.of_storing_eq_none (hs : w.storing = none)
    (hbefore : ∀ before callers, w.supply.phase = .probing before callers →
      before = w.supply.holding.snapshot?)
    (hknown : ∀ known, .watcher known ∈ w.supply.callers → known = w.version?) : Steady w where
  before := hbefore
  known := hknown
  idle s he := by cases hs.symm.trans he
  current callers snapshot he := by cases hs.symm.trans he

theorem Steady.begun (holding : Holding) : Steady (begun holding) := by
  refine .of_storing_eq_none rfl ?_ ?_
  · intro before callers h
    cases h
  · intro known h
    cases h

inductive Turn (w next : Watch) : Prop where
  /-- Nothing is replaced, and what was going to be announced is. -/
  | kept (hv : next.version? = w.version?) (hp : next.promised = w.promised)
  /-- An archive is taken up, and those who waited for it will learn of its version. -/
  | taken (version : String) (hv : next.version? = some version)
    (hp : next.promised = w.supply.callers.foldl (Asker.announce (some version)) w.promised)

theorem Steady.join (h : Steady w) {asker : Asker}
    (ha : ∀ known, asker = .watcher known → known = w.version?) :
    Steady (w.join asker) ∧ Turn w (w.join asker) := by
  unfold Watch.join
  split
  · rename_i callers snapshot hs
    -- The archive is held already, so whoever joins now is not told of it.
    refine ⟨⟨h.before, h.known, fun _ _ => h.idle _ hs, ?_⟩, .kept rfl ?_⟩
    · intro others other he
      cases he
      exact h.current callers snapshot hs
    · have hnew : ∀ known, Asker.watcher known ∈ [asker] → known = snapshot.fingerprint := by
        intro known hk
        rw [ha known (List.mem_singleton.mp hk).symm, h.current callers snapshot hs]
      have hold : w.promised =
          callers.foldl (Asker.announce snapshot.fingerprint) w.announced := by
        rw [promised, hs]
      rw [hold]
      exact List.foldl_append.trans (foldl_announce_of_known hnew _)
  · rename_i hs
    have hversion : ({ w with supply := (w.supply.force asker).1 } : Watch).version? = w.version? :=
      congrArg Holding.fingerprint? (Supply.holding_force w.supply asker)
    refine ⟨.of_storing_eq_none hs ?_ ?_, .kept hversion rfl⟩
    · intro before callers hphase
      rw [Supply.holding_force]
      exact Supply.before_force h.before hphase
    · intro known hk
      rw [hversion]
      rw [Supply.callers_force] at hk
      rcases List.mem_append.mp hk with hk | hk
      · exact h.known known hk
      · exact ha known (List.mem_singleton.mp hk).symm

theorem Steady.visit (h : Steady w) (now : Number) : Steady (w.visit now) ∧ Turn w (w.visit now) := by
  have hsame : Steady w ∧ Turn w w := ⟨h, .kept rfl rfl⟩
  have hjoin : Steady (w.join .visitor) ∧ Turn w (w.join .visitor) :=
    h.join fun known hk => nomatch hk
  unfold Watch.visit
  split
  · split
    · exact hsame
    · exact hjoin
  · rename_i hs
    rcases Supply.ensure_eq w.supply now .visitor with he | he
    · rw [he]
      exact hsame
    · rw [he]
      rw [join_of_storing_eq_none hs] at hjoin
      exact hjoin

theorem Steady.known_of_held (h : Steady w) {callers : List Asker} {snapshot : Snapshot}
    (hc : w.supply.callers = callers) (hs : w.supply.holding.snapshot? = some snapshot) :
    ∀ known, .watcher known ∈ callers → known = snapshot.fingerprint := by
  intro known hk
  rw [← hc] at hk
  rw [h.known known hk, version?, Holding.fingerprint?_eq, hs]
  rfl

theorem settle_of_known {callers : List Asker} {snapshot : Snapshot}
    (h : ∀ known, .watcher known ∈ callers → known = snapshot.fingerprint) (w : Watch) :
    w.settle callers (.ok snapshot) = w := by
  rw [settle, foldl_announce_of_known h]

theorem Steady.storing_eq_none (h : Steady w) (hp : w.supply.phase ≠ .idle) : w.storing = none := by
  cases hs : w.storing with
  | none => rfl
  | some s => exact absurd (h.idle s hs) hp

theorem Steady.rest (h : Steady w) {holding : Holding}
    (hv : holding.fingerprint? = w.version?) :
    Steady { w with supply := { holding, phase := .idle } } ∧
      Turn w { w with supply := { holding, phase := .idle } } := by
  refine ⟨⟨?_, ?_, fun _ _ => rfl, ?_⟩, .kept hv rfl⟩
  · intro before callers hphase
    cases hphase
  · intro known hk
    cases hk
  · intro callers snapshot hs
    exact (h.current callers snapshot hs).trans hv.symm

theorem Steady.probe (h : Steady w) (now : Number) (answer : Except Failure (Option String)) :
    Steady (w.probe now answer) ∧ Turn w (w.probe now answer) := by
  have hstep := Supply.probed_step w.supply now answer
  unfold Watch.probe
  generalize w.supply.probed now answer = next at hstep
  obtain ⟨supply, progress, notices⟩ := next
  cases hstep with
  | ignored _ => exact ⟨h, .kept rfl rfl⟩
  | failed _ => exact h.rest rfl
  | stale hphase =>
    have hknown := h.known_of_held (by rw [Supply.callers, hphase]) (h.before _ _ hphase).symm
    dsimp only
    rw [settle_of_known hknown]
    exact h.rest rfl
  | unchanged hphase _ =>
    have hknown := h.known_of_held (by rw [Supply.callers, hphase]) (h.before _ _ hphase).symm
    dsimp only
    rw [settle_of_known hknown]
    exact h.rest (Holding.fingerprint?_touch w.supply.holding now)
  | outdated hphase _ =>
    have hs := h.storing_eq_none (by simp [hphase])
    refine ⟨.of_storing_eq_none hs ?_ ?_, .kept rfl rfl⟩
    · intro before callers he
      cases he
    · intro known hk
      exact h.known known (by rwa [Supply.callers, hphase])

theorem Steady.download (h : Steady w) (now : Number) (answer : Except Failure Bytes) :
    Steady (w.download now answer) ∧ Turn w (w.download now answer) := by
  have hstep := Supply.downloaded_step w.supply now answer
  unfold Watch.download
  generalize w.supply.downloaded now answer = next at hstep
  obtain ⟨supply, progress, notices⟩ := next
  cases hstep with
  | ignored _ => exact ⟨h, .kept rfl rfl⟩
  | failed _ => exact h.rest rfl
  | refused _ => exact h.rest rfl
  | taken hphase ha hheld =>
    rename_i reported callers data archive holding
    have hs := h.storing_eq_none (by simp [hphase])
    have hversion : holding.fingerprint? = some (Supply.versionOf reported data) := by
      rw [Holding.fingerprint?, hheld]
      rfl
    refine ⟨⟨?_, ?_, fun _ _ => rfl, ?_⟩, .taken _ hversion ?_⟩
    · intro before callers he
      cases he
    · intro known hk
      cases hk
    · intro callers snapshot he
      cases he
      exact hversion.symm
    · rw [promised, promised, hs, Supply.callers, hphase]

theorem Steady.close (h : Steady w) : Steady w.close ∧ Turn w w.close := by
  unfold Watch.close
  split
  · rename_i callers snapshot hs
    refine ⟨⟨h.before, h.known, fun s he => ?_, fun others other he => ?_⟩, .kept rfl ?_⟩
    · cases he
    · cases he
    · rw [promised, promised, hs]
      rfl
  · exact ⟨h, .kept rfl rfl⟩

theorem Steady.step (h : Steady w) (event : Event) :
    Steady (w.step event) ∧ Turn w (w.step event) := by
  cases event with
  | visit now => exact h.visit now
  | refresh => exact h.join fun known hk => (Asker.watcher.inj hk).symm
  | probe now answer => exact h.probe now answer
  | download now answer => exact h.download now answer
  | stored => exact h.close

/-- A replacement that was waited for in the background will be announced, and no other one. -/
theorem promised_step (h : Steady w) (event : Event) :
    (w.step event).promised =
      latest w.promised ((w.replacement? event).toList.filter (·.isWatched)) := by
  cases (h.step event).2 with
  | kept hv hp =>
    have hnone : w.replacement? event = none := if_pos hv
    rw [hnone, hp]
    rfl
  | taken version hv hp =>
    -- An archive of the version that was held counts as no replacement, and nobody is told of it.
    by_cases hsame : (w.step event).version? = w.version?
    · have hnone : w.replacement? event = none := if_pos hsame
      have hknown : ∀ known, .watcher known ∈ w.supply.callers → known = some version :=
        fun known hk => (h.known known hk).trans (hsame.symm.trans hv)
      rw [hnone, hp, foldl_announce_of_known hknown]
      rfl
    · have hsome : w.replacement? event =
          some { version, isWatched := w.supply.callers.any Asker.isWatcher } := by
        rw [replacement?, if_neg hsame, hv]
        rfl
      have hother : ∀ known, .watcher known ∈ w.supply.callers → known ≠ some version :=
        fun known hk he => hsame (hv.trans (he.symm.trans (h.known known hk)))
      rw [hsome, hp, foldl_announce_of_other hother]
      cases w.supply.callers.any Asker.isWatcher <;> rfl

theorem version?_step (h : Steady w) (event : Event) :
    (w.step event).version? = latest w.version? (w.replacement? event).toList := by
  rw [replacement?]
  split
  · rename_i hsame
    exact hsame
  · rename_i hother
    cases (h.step event).2 with
    | kept hv _ => exact absurd hv hother
    | taken version hv _ =>
      rw [hv]
      rfl

theorem version?_run (h : Steady w) (events : List Event) :
    (w.run events).version? = latest w.version? (w.replacements events) := by
  induction events generalizing w with
  | nil => rfl
  | cons event events ih =>
    rw [replacements, latest_append, ← version?_step h event]
    exact ih (h.step event).1

theorem promised_run (h : Steady w) (events : List Event) :
    (w.run events).promised =
      latest w.promised ((w.replacements events).filter (·.isWatched)) := by
  induction events generalizing w with
  | nil => rfl
  | cons event events ih =>
    rw [replacements, List.filter_append, latest_append, ← promised_step h event]
    exact ih (h.step event).1

theorem Steady.run (h : Steady w) (events : List Event) : Steady (w.run events) := by
  induction events generalizing w with
  | nil => exact h
  | cons event events ih => exact ih (h.step event).1

@[simp] theorem storing_probe (w : Watch) (now : Number)
    (answer : Except Failure (Option String)) : (w.probe now answer).storing = w.storing := by
  unfold probe
  split
  · exact storing_settle _ _ _
  · rfl

/-- When a refresh in the background ends, nothing is promised any more. -/
theorem storing_step_of_finishes (h : Steady w) {event : Event} (hf : w.Finishes event) :
    (w.step event).storing = none := by
  obtain ⟨known, hk⟩ := hf
  cases event with
  | visit now => cases hk
  | refresh => cases hk
  | download now answer => cases hk
  | probe now answer =>
    have hp : w.supply.phase ≠ .idle := by
      intro hidle
      rw [served, Supply.probed, hidle] at hk
      cases hk
    rw [step, storing_probe]
    exact h.storing_eq_none hp
  | stored =>
    rw [step, close]
    split
    · exact storing_settle _ _ _
    · assumption

theorem promised_of_storing_eq_none (h : w.storing = none) : w.promised = w.announced := by
  rw [promised, h]

/-- When a refresh in the background ends well, the version that is held is the one announced last
exactly if the last replacement was waited for in the background, or brought the version of the last
one that was. -/
theorem held_eq_announced_iff (holding : Holding) (events : List Event) (event : Event)
    (hf : ((begun holding).run events).Finishes event) :
    let w := (begun holding).run (events ++ [event])
    let replaced := (begun holding).replacements (events ++ [event])
    w.version? = w.announced ↔
      latest holding.fingerprint? replaced =
        latest holding.fingerprint? (replaced.filter (·.isWatched)) := by
  intro w replaced
  have hsteady := Steady.begun holding
  have hlast : w = ((begun holding).run events).step event := by
    rw [show w = (events ++ [event]).foldl step (begun holding) from rfl, List.foldl_append]
    rfl
  -- As the refresh in the background ends, all that was promised has been announced.
  have hpromised : w.promised = w.announced := by
    rw [hlast]
    exact promised_of_storing_eq_none (storing_step_of_finishes (hsteady.run events) hf)
  rw [← hpromised, version?_run hsteady, promised_run hsteady]
  rfl

def blank : Bytes := [80, 75, 5, 6] ++ List.replicate 18 0

def first : Holding where
  lifetime := .ofNat 1800000
  directory := "data"
  file := { path := "" }
  held := some { data := blank, archive := ⟨[]⟩, fingerprint := "v1", since := .ofNat 0 }

/-- The refresh in the background finds another version. -/
def noticed : List Event :=
  [.refresh, .probe (.ofNat 0) (.ok (some "v2")), .download (.ofNat 0) (.ok blank)]

theorem held_eq_announced_iff_noticed :
    ((begun first).run noticed).Finishes .stored ∧
      let w := (begun first).run (noticed ++ [.stored])
      let replaced := (begun first).replacements (noticed ++ [.stored])
      w.version? = w.announced ↔
        latest first.fingerprint? replaced =
          latest first.fingerprint? (replaced.filter (·.isWatched)) := by
  have hf : ((begun first).run noticed).Finishes .stored := ⟨some "v1", by decide +kernel⟩
  exact ⟨hf, held_eq_announced_iff first noticed .stored hf⟩

/-- Between two refreshes in the background, a request brings another version. -/
def missed : List Event :=
  [.refresh, .probe (.ofNat 0) (.ok (some "v1")), .visit (.ofNat 1800001),
    .probe (.ofNat 1800001) (.ok (some "v2")), .download (.ofNat 1800001) (.ok blank), .stored,
    .refresh]

def found : Event := .probe (.ofNat 1800001) (.ok (some "v2"))

/-- The refresh in the background ends well, and the version that is held was never announced. -/
theorem announced_ne_held_missed :
    ((begun first).run missed).Finishes found ∧
      ((begun first).run (missed ++ [found])).version? = some "v2" ∧
      ((begun first).run (missed ++ [found])).announced = some "v1" :=
  ⟨⟨some "v2", by decide +kernel⟩, by decide +kernel, by decide +kernel⟩

end DomainRules.Watch
