import DomainRules.Proofs.Keyed
import DomainRules.Proofs.Memo.Attendance

namespace DomainRules.Memo.Workshop

variable {w : Workshop}

/-- What holds of the calls and the computations at any time. -/
structure Shared (w : Workshop) : Prop where
  /-- At most one computation is under way for a key and a version. -/
  single : (w.works.map Work.pair).Nodup
  /-- What can be joined are the computations under way, each under a name of its own. -/
  pending : w.memo.running.map Computation.task = w.works.map Work.task
  names : (w.memo.running.map (·.identity)).Nodup
  /-- Every call has settled once, or it waits for a computation under way. -/
  once : (w.settled.map (·.caller) ++ w.waiting).Perm (List.range w.count)
  /-- A computation ends once at most. -/
  endings : (w.underway ++ w.ended.map (·.1)).Nodup
  /-- Who waited for a computation has settled exactly if it has ended, with its outcome, and not as
  one who found a text. -/
  settles : ∀ caller owner, (caller, owner) ∈ w.attached →
    ((∃ s ∈ w.settled, s.caller = caller) ↔ owner ∉ w.underway) ∧
      ∀ s ∈ w.settled, s.caller = caller → (owner, s.outcome) ∈ w.ended ∧ s.isCached = false
  /-- A call that finds its text settles with it at once. -/
  finds : ∀ now key fingerprint text,
    (w.memo.store.get now key (some fingerprint)).2 = some text →
    (w.step (.call now key fingerprint)).settled = w.settled ++ [⟨w.count, .ok text, true⟩]
  /-- Another one waits for the computation that is under way for its key and version. -/
  joins : ∀ now key fingerprint work, '\n' ∉ fingerprint.toList →
    (w.memo.store.get now key (some fingerprint)).2 = none → work ∈ w.works →
    work.pair = (key, fingerprint) →
    (w.step (.call now key fingerprint)).attached = w.attached ++ [(w.count, work.owner)] ∧
      (w.step (.call now key fingerprint)).works = w.works
  /-- If there is none it starts one. -/
  starts : ∀ now key fingerprint, '\n' ∉ fingerprint.toList →
    (w.memo.store.get now key (some fingerprint)).2 = none →
    (key, fingerprint) ∉ w.works.map Work.pair →
    (w.step (.call now key fingerprint)).attached = w.attached ++ [(w.count, w.count)] ∧
      (w.step (.call now key fingerprint)).works =
        w.works ++ [{ owner := w.count, key, fingerprint }]
  /-- A computation that fails leaves alone what is kept, and when it has ended none is under way
  for its key and version. -/
  fails : ∀ work ∈ w.works, work.outcome = none → ∀ failure,
    let next := (w.step (.fail work.owner failure)).step (.close work.owner)
    next.memo.store = w.memo.store ∧ (work.owner, .error failure) ∈ next.ended ∧
      work.pair ∉ next.works.map Work.pair

theorem Tidy.names (h : Tidy w) : (w.memo.running.map (·.identity)).Nodup := by
  have hnames : w.memo.running.map (·.identity) = w.works.map Work.name := by
    calc
      w.memo.running.map (·.identity)
      _ = (w.memo.running.map Computation.task).map fun task => identity task.1 task.2.1 := by
        rw [List.map_map]
        rfl
      _ = w.works.map Work.name := by
        rw [h.running, List.map_map]
        rfl
  rw [hnames]
  have howners : (w.works.map (·.owner)).Nodup := (List.nodup_append.mp h.endings).1
  refine List.Nodup.map_on ?_ howners.of_map
  intro work hwork other hother hname
  exact List.inj_on_of_nodup_map howners hwork hother ((h.name_eq_iff hother hwork).mp hname)

theorem Tidy.settles (h : Tidy w) {caller owner : Nat} (ha : (caller, owner) ∈ w.attached) :
    ((∃ s ∈ w.settled, s.caller = caller) ↔ owner ∉ w.underway) ∧
      ∀ s ∈ w.settled, s.caller = caller → (owner, s.outcome) ∈ w.ended ∧ s.isCached = false := by
  have hcallers : (w.settled.map (·.caller)).Nodup :=
    (List.nodup_append.mp (h.once.nodup_iff.mpr List.nodup_range)).1
  have hwaits : owner ∈ w.underway → ∀ s ∈ w.settled, s.caller ≠ caller := by
    intro hunder
    refine h.not_settled_of_waiting (List.mem_map.mpr ⟨(caller, owner), ?_, rfl⟩)
    exact List.mem_filter.mpr ⟨ha, by simpa using hunder⟩
  constructor
  · constructor
    · rintro ⟨s, hs, hcaller⟩ hunder
      exact hwaits hunder s hs hcaller
    · intro hover
      obtain ⟨outcome, -, hsettled⟩ := (h.attached _ ha).resolve_left hover
      exact ⟨_, hsettled, rfl⟩
  · intro s hs hcaller
    obtain ⟨outcome, hended, hsettled⟩ :=
      (h.attached _ ha).resolve_left fun hunder => hwaits hunder s hs hcaller
    have hsame : s = ⟨caller, outcome, false⟩ :=
      List.inj_on_of_nodup_map hcallers hs hsettled hcaller
    rw [hsame]
    exact ⟨hended, rfl⟩

theorem settled_call {now : Number} {key fingerprint text : String}
    (hget : (w.memo.store.get now key (some fingerprint)).2 = some text) :
    (w.call now key fingerprint).settled = w.settled ++ [⟨w.count, .ok text, true⟩] := by
  have hanswer : (w.memo.call now w.count key (some fingerprint)).2 = .kept text :=
    answer_of_get hget
  rw [call]
  dsimp only
  rw [hanswer]

theorem Tidy.exists_running_of_pair (h : Tidy w) {work : Work} (hwork : work ∈ w.works)
    {key fingerprint : String} (hpair : work.pair = (key, fingerprint)) :
    ∃ c ∈ w.memo.running, c.identity = identity key (some fingerprint) := by
  obtain ⟨c, hc, htask⟩ := h.exists_running hwork
  have hkey : work.key = key := congrArg Prod.fst hpair
  have hversion : work.fingerprint = fingerprint := congrArg Prod.snd hpair
  refine ⟨c, hc, (identity_eq_of_task htask.symm).trans ?_⟩
  rw [Work.name, hkey, hversion]

theorem Tidy.owner_of_identity (h : Tidy w) {work : Work} (hwork : work ∈ w.works)
    {key fingerprint : String} (hline : '\n' ∉ fingerprint.toList)
    (hpair : work.pair = (key, fingerprint)) {c : Computation Nat} (hc : c ∈ w.memo.running)
    (hname : c.identity = identity key (some fingerprint)) : c.owner = work.owner := by
  obtain ⟨other, hother, htask⟩ := h.exists_work hc
  have hother' : other.pair = (key, fingerprint) :=
    h.pair_of_name hother hline ((identity_eq_of_task htask).symm.trans hname)
  have hsame : other = work :=
    List.inj_on_of_nodup_map h.single hother hwork (hother'.trans hpair.symm)
  have howner : other.owner = c.owner := congrArg (·.2.2) htask
  rw [← howner, hsame]

theorem Tidy.joins (h : Tidy w) {now : Number} {key fingerprint : String} {work : Work}
    (hline : '\n' ∉ fingerprint.toList)
    (hget : (w.memo.store.get now key (some fingerprint)).2 = none) (hwork : work ∈ w.works)
    (hpair : work.pair = (key, fingerprint)) :
    (w.call now key fingerprint).attached = w.attached ++ [(w.count, work.owner)] ∧
      (w.call now key fingerprint).works = w.works := by
  obtain ⟨c, hc, hname⟩ := h.exists_running_of_pair hwork hpair
  rcases call_cases w.memo now w.count key (some fingerprint) with
    ⟨text, hsome, -, -⟩ | ⟨hanswer, -, -⟩ | ⟨-, hnew, -⟩
  · rw [hget] at hsome
    cases hsome
  · rw [call]
    dsimp only
    rw [hanswer]
    dsimp only
    cases hfind : w.memo.running? (identity key (some fingerprint)) with
    | none => exact absurd hname (by simpa using List.find?_eq_none.mp hfind c hc)
    | some found =>
      have hfound : found.identity = identity key (some fingerprint) := by
        simpa using List.find?_some hfind
      have howner := h.owner_of_identity hwork hline hpair (List.mem_of_find?_eq_some hfind) hfound
      rw [← howner]
      exact ⟨rfl, rfl⟩
  · exact absurd hname (hnew c hc)

theorem Tidy.starts (h : Tidy w) {now : Number} {key fingerprint : String}
    (hline : '\n' ∉ fingerprint.toList)
    (hget : (w.memo.store.get now key (some fingerprint)).2 = none)
    (hfree : (key, fingerprint) ∉ w.works.map Work.pair) :
    (w.call now key fingerprint).attached = w.attached ++ [(w.count, w.count)] ∧
      (w.call now key fingerprint).works =
        w.works ++ [{ owner := w.count, key, fingerprint }] := by
  rcases call_cases w.memo now w.count key (some fingerprint) with
    ⟨text, hsome, -, -⟩ | ⟨-, ⟨c, hc, hname⟩, -⟩ | ⟨hanswer, -, -⟩
  · rw [hget] at hsome
    cases hsome
  · obtain ⟨work, hwork, htask⟩ := h.exists_work hc
    have hpair : work.pair = (key, fingerprint) :=
      h.pair_of_name hwork hline ((identity_eq_of_task htask).symm.trans hname)
    exact absurd (hpair ▸ List.mem_map_of_mem hwork) hfree
  · rw [call]
    dsimp only
    rw [hanswer]
    exact ⟨rfl, rfl⟩

theorem Tidy.work?_eq (h : Tidy w) {work : Work} (hwork : work ∈ w.works) :
    w.work? work.owner = some work := by
  have howners : (w.works.map (·.owner)).Nodup := (List.nodup_append.mp h.endings).1
  exact Keyed.find?_eq_some howners hwork

theorem Tidy.note (h : Tidy w) (owner : Nat) (outcome : Except Failure String) :
    Tidy (w.note owner outcome) := by
  have hworks := map_task_note w owner outcome
  exact h.passed rfl hworks

theorem Tidy.close_fail (h : Tidy w) {work : Work} (hwork : work ∈ w.works)
    (hunknown : work.outcome = none) (failure : Failure) :
    (w.fail work.owner failure).close work.owner =
      (w.note work.owner (.error failure)).finish
        { work with outcome := some (.error failure) } (.error failure) := by
  have hfail : w.fail work.owner failure = w.note work.owner (.error failure) := by
    rw [fail, h.work?_eq hwork]
    simp [hunknown]
  have hnoted : ({ work with outcome := some (.error failure) } : Work) ∈
      (w.note work.owner (.error failure)).works :=
    List.mem_map.mpr ⟨work, hwork, by simp⟩
  have hfound := (h.note work.owner (.error failure)).work?_eq hnoted
  rw [hfail, close, hfound]

theorem Tidy.pair_notMem_finish (h : Tidy w) {work : Work} (hwork : work ∈ w.works)
    (outcome : Except Failure String) :
    work.pair ∉ (w.finish work outcome).works.map Work.pair := by
  intro hmem
  obtain ⟨other, hother, hpair⟩ := List.mem_map.mp hmem
  obtain ⟨hin, hne⟩ := List.mem_filter.mp hother
  have hsame : other = work := List.inj_on_of_nodup_map h.single hin hwork hpair
  simp [hsame] at hne

theorem Tidy.fails (h : Tidy w) {work : Work} (hwork : work ∈ w.works)
    (hunknown : work.outcome = none) (failure : Failure) :
    ((w.fail work.owner failure).close work.owner).memo.store = w.memo.store ∧
      (work.owner, .error failure) ∈ ((w.fail work.owner failure).close work.owner).ended ∧
      work.pair ∉ ((w.fail work.owner failure).close work.owner).works.map Work.pair := by
  have hnoted : ({ work with outcome := some (.error failure) } : Work) ∈
      (w.note work.owner (.error failure)).works :=
    List.mem_map.mpr ⟨work, hwork, by simp⟩
  rw [h.close_fail hwork hunknown failure]
  refine ⟨rfl, List.mem_append_right _ List.mem_cons_self, ?_⟩
  exact (h.note work.owner (.error failure)).pair_notMem_finish hnoted (.error failure)

/-- Whatever is asked for, stored and swept, and however computations end, there is one at a time
for a key and a version, and all who wait for it settle with its outcome. -/
theorem shared_run (lifetime bound : Nat) {events : List Event}
    (hline : ∀ event ∈ events, ∀ fingerprint, event.asked? = some fingerprint →
      '\n' ∉ fingerprint.toList) : Shared ((Workshop.opened lifetime bound).run events) := by
  have h := Tidy.run lifetime bound hline
  exact {
    single := h.single
    pending := h.running
    names := h.names
    once := h.once
    endings := h.endings
    settles := fun caller owner ha => h.settles ha
    finds := fun now key fingerprint text hget => settled_call hget
    joins := fun now key fingerprint work hline hget hwork hpair => h.joins hline hget hwork hpair
    starts := fun now key fingerprint hline hget hfree => h.starts hline hget hfree
    fails := fun work hwork hunknown failure => h.fails hwork hunknown failure }

/-- Two calls share a computation that fails while another version is computed. The next call starts
a second one, whose text the last call finds. -/
def contested : List Event :=
  [.call (.finite 1) "surge:a" "v1", .call (.finite 1) "surge:a" "v1",
    .call (.finite 2) "surge:a" "v2", .fail 0 (.listNotFound "a"), .close 0,
    .call (.finite 3) "surge:a" "v1", .succeed (.finite 4) 3 "DOMAIN,a", .close 3,
    .call (.finite 5) "surge:a" "v1"]

theorem shared_run_contested :
    (∀ event ∈ contested, ∀ fingerprint, event.asked? = some fingerprint →
      '\n' ∉ fingerprint.toList) ∧
    Shared ((Workshop.opened 60000 100).run contested) ∧
    ((Workshop.opened 60000 100).run contested).settled.map (·.caller) = [0, 1, 3, 4] ∧
    ((Workshop.opened 60000 100).run contested).waiting = [2] := by
  have hline : ∀ event ∈ contested, ∀ fingerprint, event.asked? = some fingerprint →
      '\n' ∉ fingerprint.toList := by
    have hversions : ∀ fingerprint ∈ contested.filterMap Event.asked?,
        '\n' ∉ fingerprint.toList := by decide
    intro event he fingerprint hasked
    exact hversions fingerprint (List.mem_filterMap.mpr ⟨event, he, hasked⟩)
  exact ⟨hline, shared_run 60000 100 hline, by decide +kernel, by decide +kernel⟩

end DomainRules.Memo.Workshop
