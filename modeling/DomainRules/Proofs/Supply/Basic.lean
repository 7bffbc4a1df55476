import DomainRules.Supply

namespace DomainRules

namespace Holding

theorem fingerprint?_eq (holding : Holding) :
    holding.fingerprint? = holding.snapshot?.bind (·.fingerprint) := by
  unfold fingerprint? snapshot?
  cases holding.held <;> rfl

@[simp] theorem fingerprint?_touch (holding : Holding) (now : Number) :
    (holding.touch now).fingerprint? = holding.fingerprint? := by
  unfold fingerprint? touch
  cases holding.held <;> rfl

theorem exists_held_of_snapshot? {holding : Holding} {snapshot : Snapshot}
    (h : holding.snapshot? = some snapshot) :
    ∃ held, holding.held = some held ∧ held.snapshot = snapshot := by
  rw [snapshot?, Option.map_eq_some_iff] at h
  exact h

theorem exists_held_of_current? {holding : Holding} {now : Number} {snapshot : Snapshot}
    (h : holding.current? now = some snapshot) :
    ∃ held, holding.held = some held ∧ held.snapshot = snapshot ∧
      holding.isStale now held = false := by
  unfold current? at h
  split at h
  · rename_i held hheld
    split at h
    · cases h
    · rename_i hfresh
      exact ⟨held, hheld, Option.some.inj h, Bool.eq_false_iff.mpr hfresh⟩
  · cases h

theorem eq_of_set_error {holding next : Holding} {now : Number} {data : Bytes}
    {fingerprint : String} {failure : Failure} {notices : List Notice}
    (h : holding.set now data fingerprint = (next, .error failure, notices)) :
    next = holding := by
  unfold set at h
  split at h
  · exact (Prod.mk.inj h).1.symm
  · split at h
    · exact (Prod.mk.inj h).1.symm
    · dsimp only at h
      split at h
      · cases (Prod.mk.inj (Prod.mk.inj h).2).1
      · split at h <;> cases (Prod.mk.inj (Prod.mk.inj h).2).1

theorem held_of_set_ok {holding next : Holding} {now : Number} {data : Bytes}
    {fingerprint : String} {snapshot : Snapshot} {notices : List Notice}
    (h : holding.set now data fingerprint = (next, .ok snapshot, notices)) :
    ∃ archive, Archive.ofZip holding.directory data = .ok archive ∧ fingerprint ≠ "" ∧
      snapshot = ⟨archive, some fingerprint⟩ ∧
      next.held = some { data, archive, fingerprint, since := now } := by
  unfold set at h
  split at h
  · cases (Prod.mk.inj (Prod.mk.inj h).2).1
  · rename_i hf
    split at h
    · cases (Prod.mk.inj (Prod.mk.inj h).2).1
    · rename_i archive ha
      refine ⟨archive, ha, hf, ?_⟩
      dsimp only at h
      split at h
      · obtain ⟨hnext, hrest⟩ := Prod.mk.inj h
        exact ⟨(Except.ok.inj (Prod.mk.inj hrest).1).symm, hnext ▸ rfl⟩
      · split at h
        · obtain ⟨hnext, hrest⟩ := Prod.mk.inj h
          exact ⟨(Except.ok.inj (Prod.mk.inj hrest).1).symm, hnext ▸ rfl⟩
        · obtain ⟨hnext, hrest⟩ := Prod.mk.inj h
          exact ⟨(Except.ok.inj (Prod.mk.inj hrest).1).symm, hnext ▸ rfl⟩

end Holding

namespace Supply

variable {ι : Type}

def callers (supply : Supply ι) : List ι :=
  match supply.phase with
  | .idle => []
  | .probing _ callers => callers
  | .downloading _ _ callers => callers

@[simp] theorem holding_force (supply : Supply ι) (caller : ι) :
    (supply.force caller).1.holding = supply.holding := by
  unfold force
  split <;> rfl

@[simp] theorem callers_force (supply : Supply ι) (caller : ι) :
    (supply.force caller).1.callers = supply.callers ++ [caller] := by
  unfold force callers
  cases supply.phase <;> rfl

/-- A refresh begins with what is held, so an asker changes nothing about it. -/
theorem before_force {supply : Supply ι} {caller : ι}
    (h : ∀ before callers, supply.phase = .probing before callers →
      before = supply.holding.snapshot?)
    {before : Option Snapshot} {callers : List ι}
    (hphase : (supply.force caller).1.phase = .probing before callers) :
    before = supply.holding.snapshot? := by
  unfold force at hphase
  split at hphase
  · cases hphase
    rfl
  · rename_i held others hp
    cases hphase
    exact h _ _ hp
  · cases hphase

/-- Asking for a current archive is asking for a refresh, unless the one that is held is current. -/
theorem ensure_eq (supply : Supply ι) (now : Number) (caller : ι) :
    (supply.ensure now caller).1 = supply ∨
      (supply.ensure now caller).1 = (supply.force caller).1 := by
  unfold ensure
  split
  · exact Or.inl rfl
  · exact Or.inr rfl

inductive ProbeStep (supply : Supply ι) (now : Number) :
    Except Failure (Option String) → Supply ι → Progress ι → Prop where
  | ignored {answer : Except Failure (Option String)}
    (h : ∀ before callers, supply.phase ≠ .probing before callers) :
    ProbeStep supply now answer supply .ignored
  | failed {callers : List ι} {failure : Failure} (h : supply.phase = .probing none callers) :
    ProbeStep supply now (.error failure) { supply with phase := .idle }
      (.ended callers (.error failure))
  /-- The probe failed, and what is held serves on. -/
  | stale {snapshot : Snapshot} {callers : List ι} {failure : Failure}
    (h : supply.phase = .probing (some snapshot) callers) :
    ProbeStep supply now (.error failure) { supply with phase := .idle }
      (.ended callers (.ok snapshot))
  | unchanged {snapshot : Snapshot} {callers : List ι} {version : String}
    (h : supply.phase = .probing (some snapshot) callers)
    (hv : snapshot.fingerprint = some version) :
    ProbeStep supply now (.ok (some version)) { holding := supply.holding.touch now, phase := .idle }
      (.ended callers (.ok snapshot))
  | outdated {before : Option Snapshot} {callers : List ι} {reported : Option String}
    (h : supply.phase = .probing before callers)
    (hv : reported = none ∨ ∀ snapshot ∈ before, reported ≠ snapshot.fingerprint) :
    ProbeStep supply now (.ok reported)
      { supply with phase := .downloading before reported callers } .downloads

theorem probed_step (supply : Supply ι) (now : Number) (answer : Except Failure (Option String)) :
    ProbeStep supply now answer (supply.probed now answer).1 (supply.probed now answer).2.1 := by
  unfold probed
  split
  · rename_i before callers hphase
    split
    · exact .stale hphase
    · exact .failed hphase
    · rename_i reported snapshot
      split
      · rename_i hsame
        rw [Bool.and_eq_true, decide_eq_true_eq] at hsame
        obtain ⟨version, rfl⟩ := Option.isSome_iff_exists.mp hsame.1
        exact .unchanged hphase hsame.2.symm
      · rename_i hother
        refine .outdated hphase ?_
        cases reported with
        | none => exact Or.inl rfl
        | some version =>
          refine Or.inr fun other ho he => hother ?_
          rw [Option.mem_def, Option.some.injEq] at ho
          rw [ho, he, ← he]
          simp
    · exact .outdated hphase (Or.inr fun snapshot hs => by cases hs)
  · rename_i hphase
    exact .ignored hphase

/-- A probe leads to a download if it succeeds and does not report the version that is held. -/
theorem downloads_probed_iff {supply : Supply ι} {before : Option Snapshot}
    {callers : List ι} (hp : supply.phase = .probing before callers) (now : Number)
    (answer : Except Failure (Option String)) :
    (supply.probed now answer).2.1 = .downloads ↔
      ∃ reported, answer = .ok reported ∧
        (reported = none ∨ ∀ snapshot ∈ before, reported ≠ snapshot.fingerprint) := by
  have hstep := probed_step supply now answer
  generalize supply.probed now answer = told at hstep
  obtain ⟨next, progress, notices⟩ := told
  -- Of all that a probe can lead to, only the last case sends a download.
  cases hstep with
  | ignored hno => exact absurd hp (hno _ _)
  | failed hphase => simp
  | stale hphase => simp
  | unchanged hphase hv =>
    rename_i snapshot others version
    rw [hphase] at hp
    obtain ⟨rfl, -⟩ := Phase.probing.inj hp
    refine iff_of_false nofun ?_
    rintro ⟨reported, he, hother⟩
    obtain rfl := Except.ok.inj he
    rcases hother with hnone | hother
    · cases hnone
    · exact hother snapshot rfl hv.symm
  | outdated hphase hv =>
    rw [hphase] at hp
    obtain ⟨rfl, -⟩ := Phase.probing.inj hp
    exact iff_of_true rfl ⟨_, rfl, hv⟩

inductive DownloadStep (supply : Supply ι) (now : Number) :
    Except Failure Bytes → Supply ι → Progress ι → Prop where
  | ignored {answer : Except Failure Bytes}
    (h : ∀ before reported callers, supply.phase ≠ .downloading before reported callers) :
    DownloadStep supply now answer supply .ignored
  | failed {before : Option Snapshot} {reported : Option String} {callers : List ι}
    {failure : Failure} (h : supply.phase = .downloading before reported callers) :
    DownloadStep supply now (.error failure) { supply with phase := .idle }
      (.ended callers (.error failure))
  | refused {before : Option Snapshot} {reported : Option String} {callers : List ι}
    {data : Bytes} {failure : Failure} (h : supply.phase = .downloading before reported callers) :
    DownloadStep supply now (.ok data) { supply with phase := .idle }
      (.ended callers (.error failure))
  | taken {before : Option Snapshot} {reported : Option String} {callers : List ι}
    {data : Bytes} {archive : Archive} {holding : Holding}
    (h : supply.phase = .downloading before reported callers)
    (ha : Archive.ofZip supply.holding.directory data = .ok archive)
    (hheld : holding.held =
      some { data, archive, fingerprint := versionOf reported data, since := now }) :
    DownloadStep supply now (.ok data) { holding, phase := .idle }
      (.ended callers (.ok ⟨archive, some (versionOf reported data)⟩))

theorem downloaded_step (supply : Supply ι) (now : Number) (answer : Except Failure Bytes) :
    DownloadStep supply now answer (supply.downloaded now answer).1
      (supply.downloaded now answer).2.1 := by
  unfold downloaded
  split
  · rename_i before reported callers hphase
    split
    · exact .failed hphase
    · rename_i data
      split
      · rename_i holding failure notices hset
        rw [Holding.eq_of_set_error hset]
        exact .refused hphase
      · rename_i holding snapshot notices hset
        obtain ⟨archive, ha, _, hs, hheld⟩ := Holding.held_of_set_ok hset
        rw [hs]
        exact .taken hphase ha hheld
  · rename_i hphase
    exact .ignored hphase

section Map

variable {κ : Type} (f : ι → κ)

def Phase.map : Phase ι → Phase κ
  | .idle => .idle
  | .probing before callers => .probing before (callers.map f)
  | .downloading before reported callers => .downloading before reported (callers.map f)

def map (supply : Supply ι) : Supply κ :=
  { holding := supply.holding, phase := supply.phase.map f }

def Progress.map : Progress ι → Progress κ
  | .ignored => .ignored
  | .downloads => .downloads
  | .ended callers outcome => .ended (callers.map f) outcome

@[simp] theorem holding_map (supply : Supply ι) : (supply.map f).holding = supply.holding := rfl

@[simp] theorem callers_map (supply : Supply ι) : (supply.map f).callers = supply.callers.map f := by
  unfold callers map
  cases supply.phase <;> rfl

theorem phase_map_eq_idle_iff {supply : Supply ι} :
    (supply.map f).phase = .idle ↔ supply.phase = .idle := by
  unfold map
  cases supply.phase <;> simp [Phase.map]

-- No operation looks at who calls.

theorem force_map (supply : Supply ι) (caller : ι) :
    (supply.map f).force (f caller) =
      ((supply.force caller).1.map f, (supply.force caller).2) := by
  obtain ⟨holding, phase⟩ := supply
  cases phase <;> simp [force, map, Phase.map]

theorem probed_map (supply : Supply ι) (now : Number) (answer : Except Failure (Option String)) :
    (supply.map f).probed now answer =
      ((supply.probed now answer).1.map f, (supply.probed now answer).2.1.map f,
        (supply.probed now answer).2.2) := by
  obtain ⟨holding, phase⟩ := supply
  cases phase with
  | idle => rfl
  | downloading before reported callers => rfl
  | probing before callers =>
    cases answer with
    | error failure => cases before <;> rfl
    | ok reported =>
      cases before with
      | none => rfl
      | some snapshot =>
        simp only [probed, map, Phase.map]
        split <;> rfl

theorem downloaded_map (supply : Supply ι) (now : Number) (answer : Except Failure Bytes) :
    (supply.map f).downloaded now answer =
      ((supply.downloaded now answer).1.map f, (supply.downloaded now answer).2.1.map f,
        (supply.downloaded now answer).2.2) := by
  obtain ⟨holding, phase⟩ := supply
  cases phase with
  | idle => rfl
  | probing before callers => rfl
  | downloading before reported callers =>
    cases answer with
    | error failure => rfl
    | ok data =>
      simp only [downloaded, map, Phase.map]
      split <;> rfl

end Map

/-- The supply without the names of those who wait. -/
def anonymous (supply : Supply ι) : Supply Unit := supply.map fun _ => ()

/-- Two replies that lead to the same but for the names of those who wait. -/
theorem Progress.cases_of_map_eq {κ : Type} {p : Progress ι} {q : Progress κ}
    (h : (p.map fun _ => ()) = q.map fun _ => ()) :
    (p = .ignored ∧ q = .ignored) ∨ (p = .downloads ∧ q = .downloads) ∨
      ∃ askers callers outcome, p = .ended askers outcome ∧ q = .ended callers outcome ∧
        askers.length = callers.length := by
  cases p with
  | ignored => cases q <;> first | exact .inl ⟨rfl, rfl⟩ | cases h
  | downloads => cases q <;> first | exact .inr (.inl ⟨rfl, rfl⟩) | cases h
  | ended askers outcome =>
    cases q with
    | ended callers other =>
      obtain ⟨hcallers, rfl⟩ := Progress.ended.inj h
      have hlength := congrArg List.length hcallers
      rw [List.length_map, List.length_map] at hlength
      exact .inr (.inr ⟨askers, callers, outcome, rfl, rfl, hlength⟩)
    | ignored => cases h
    | downloads => cases h

theorem force_anonymous (supply : Supply ι) (caller : ι) :
    supply.anonymous.force () = ((supply.force caller).1.anonymous, (supply.force caller).2) :=
  force_map (fun _ => ()) supply caller

theorem probed_anonymous (supply : Supply ι) (now : Number)
    (answer : Except Failure (Option String)) :
    supply.anonymous.probed now answer =
      ((supply.probed now answer).1.anonymous, (supply.probed now answer).2.1.map fun _ => (),
        (supply.probed now answer).2.2) :=
  probed_map (fun _ => ()) supply now answer

theorem downloaded_anonymous (supply : Supply ι) (now : Number) (answer : Except Failure Bytes) :
    supply.anonymous.downloaded now answer =
      ((supply.downloaded now answer).1.anonymous,
        (supply.downloaded now answer).2.1.map fun _ => (), (supply.downloaded now answer).2.2) :=
  downloaded_map (fun _ => ()) supply now answer

end Supply

end DomainRules
