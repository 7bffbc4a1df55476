import DomainRules.Proofs.Memo.Workshop
import DomainRules.Proofs.Rulesets.Key
import Mathlib.Data.List.Induction
import Mathlib.Data.List.Nodup

namespace DomainRules.Memo.Workshop

variable {w : Workshop}

/-- What carries over from event to event. -/
structure Tidy (w : Workshop) : Prop where
  running : w.memo.running.map Computation.task = w.works.map Work.task
  oneLine : ∀ pair ∈ w.works.map Work.pair, '\n' ∉ pair.2.toList
  single : (w.works.map Work.pair).Nodup
  endings : (w.underway ++ w.ended.map (·.1)).Nodup
  numbered : ∀ owner ∈ w.underway ++ w.ended.map (·.1), owner < w.count
  attached : ∀ a ∈ w.attached, a.2 ∈ w.underway ∨
    ∃ outcome, (a.2, outcome) ∈ w.ended ∧ ⟨a.1, outcome, false⟩ ∈ w.settled
  once : (w.settled.map (·.caller) ++ w.waiting).Perm (List.range w.count)

theorem Tidy.opened (lifetime bound : Nat) : Tidy (opened lifetime bound) where
  running := rfl
  oneLine _ h := nomatch h
  single := .nil
  endings := .nil
  numbered _ h := nomatch h
  attached _ h := nomatch h
  once := .nil

theorem map_pair_of_task {works others : List Work}
    (h : others.map Work.task = works.map Work.task) :
    others.map Work.pair = works.map Work.pair := by
  have hpair : ∀ list : List Work,
      list.map Work.pair = (list.map Work.task).map fun task => (task.1, task.2.1.getD "") := by
    intro list
    rw [List.map_map]
    rfl
  rw [hpair, hpair, h]

theorem map_owner_of_task {works others : List Work}
    (h : others.map Work.task = works.map Work.task) :
    others.map (·.owner) = works.map (·.owner) := by
  have howner : ∀ list : List Work,
      list.map (·.owner) = (list.map Work.task).map (·.2.2) := by
    intro list
    rw [List.map_map]
    rfl
  rw [howner, howner, h]

theorem Tidy.exists_work (h : Tidy w) {c : Computation Nat} (hc : c ∈ w.memo.running) :
    ∃ work ∈ w.works, work.task = c.task := by
  have hmem : c.task ∈ w.works.map Work.task := h.running ▸ List.mem_map_of_mem hc
  exact List.mem_map.mp hmem

theorem Tidy.exists_running (h : Tidy w) {work : Work} (hwork : work ∈ w.works) :
    ∃ c ∈ w.memo.running, c.task = work.task := by
  have hmem : work.task ∈ w.memo.running.map Computation.task :=
    h.running ▸ List.mem_map_of_mem hwork
  exact List.mem_map.mp hmem

theorem identity_eq_of_task {work : Work} {c : Computation Nat} (h : work.task = c.task) :
    c.identity = work.name := by
  have hkey : work.key = c.key := congrArg Prod.fst h
  have hversion : some work.fingerprint = c.fingerprint := congrArg (·.2.1) h
  rw [Computation.identity, Work.name, hkey, hversion]

theorem Tidy.pair_of_name (h : Tidy w) {work : Work} (hwork : work ∈ w.works)
    {key fingerprint : String} (hline : '\n' ∉ fingerprint.toList)
    (hname : work.name = identity key (some fingerprint)) : work.pair = (key, fingerprint) := by
  have hown : '\n' ∉ work.fingerprint.toList := h.oneLine _ (List.mem_map_of_mem hwork)
  obtain ⟨hkey, hversion⟩ := identity_inj hown hline hname
  rw [Work.pair, hkey, hversion]

theorem Tidy.not_settled_of_waiting (h : Tidy w) {caller : Nat} (hw : caller ∈ w.waiting) :
    ∀ s ∈ w.settled, s.caller ≠ caller := by
  intro s hs he
  have hnodup : (w.settled.map (·.caller) ++ w.waiting).Nodup :=
    h.once.nodup_iff.mpr List.nodup_range
  have hsettled : caller ∈ w.settled.map (·.caller) := he ▸ List.mem_map_of_mem hs
  exact (List.nodup_append.mp hnodup).2.2 caller hsettled caller hw rfl

theorem once_settled {s : Settled} (hs : s.caller = w.count)
    (h : (w.settled.map (·.caller) ++ w.waiting).Perm (List.range w.count)) :
    ((w.settled ++ [s]).map (·.caller) ++ w.waiting).Perm (List.range (w.count + 1)) := by
  rw [List.map_append, List.map_singleton, hs, List.append_assoc, List.range_succ]
  -- The new call stands before those who wait, and not behind them.
  refine List.Perm.trans ?_ (h.append_right [w.count])
  rw [List.append_assoc]
  exact List.perm_append_comm.append_left (w.settled.map (·.caller))

theorem once_waiting {waiting : List Nat} (hwaiting : waiting = w.waiting ++ [w.count])
    (h : (w.settled.map (·.caller) ++ w.waiting).Perm (List.range w.count)) :
    (w.settled.map (·.caller) ++ waiting).Perm (List.range (w.count + 1)) := by
  rw [hwaiting, List.range_succ, ← List.append_assoc]
  exact h.append_right [w.count]

theorem underway_finish (w : Workshop) (work : Work) (outcome : Except Failure String) :
    (w.finish work outcome).underway = w.underway.filter (· ≠ work.owner) := by
  rw [underway, underway, List.filter_map]
  rfl

theorem once_finish {work : Work} (hwork : work.owner ∈ w.underway)
    (outcome : Except Failure String)
    (h : (w.settled.map (·.caller) ++ w.waiting).Perm (List.range w.count)) :
    ((w.finish work outcome).settled.map (·.caller) ++ (w.finish work outcome).waiting).Perm
      (List.range w.count) := by
  let waits := w.attached.filter (·.2 ∈ w.underway)
  have hown : w.attached.filter (·.2 = work.owner) = waits.filter (·.2 = work.owner) := by
    rw [List.filter_filter]
    refine List.filter_congr fun a _ => ?_
    by_cases ha : a.2 = work.owner <;> simp [ha, hwork]
  have hothers : w.attached.filter (·.2 ∈ (w.finish work outcome).underway) =
      waits.filter fun a => !decide (a.2 = work.owner) := by
    rw [List.filter_filter, underway_finish]
    refine List.filter_congr fun a _ => ?_
    by_cases ha : a.2 = work.owner <;> simp [ha]
  -- Those who waited are split by their computation: its own settle, and the others wait on.
  have hsplit : (waits.filter (·.2 = work.owner) ++
      waits.filter fun a => !decide (a.2 = work.owner)).Perm waits :=
    List.filter_append_perm (·.2 = work.owner) waits
  have hsettled : (w.finish work outcome).settled.map (·.caller) =
      w.settled.map (·.caller) ++ (waits.filter (·.2 = work.owner)).map (·.1) := by
    rw [← hown, finish, List.map_append, List.map_map]
    rfl
  have hwaiting : (w.finish work outcome).waiting =
      (waits.filter fun a => !decide (a.2 = work.owner)).map (·.1) := by
    rw [← hothers]
    rfl
  rw [hsettled, hwaiting, List.append_assoc, ← List.map_append]
  exact ((hsplit.map (·.1)).append_left (w.settled.map (·.caller))).trans h

theorem Tidy.name_eq_iff (h : Tidy w) {work other : Work} (hwork : work ∈ w.works)
    (hother : other ∈ w.works) : other.name = work.name ↔ other.owner = work.owner := by
  constructor
  · intro hname
    have hline : '\n' ∉ work.fingerprint.toList := h.oneLine _ (List.mem_map_of_mem hwork)
    have hpair : other.pair = work.pair := h.pair_of_name hother hline hname
    rw [List.inj_on_of_nodup_map h.single hother hwork hpair]
  · intro howner
    have howners : (w.works.map (·.owner)).Nodup := (List.nodup_append.mp h.endings).1
    rw [List.inj_on_of_nodup_map howners hother hwork howner]

theorem Tidy.running_finish (h : Tidy w) {work : Work} (hwork : work ∈ w.works)
    (outcome : Except Failure String) :
    (w.finish work outcome).memo.running.map Computation.task =
      (w.finish work outcome).works.map Work.task := by
  -- The name of a task is that of any computation or work that it belongs to.
  let named (task : String × Option String × Nat) : Bool := identity task.1 task.2.1 ≠ work.name
  calc
    (w.memo.running.filter (·.identity ≠ work.name)).map Computation.task
    _ = (w.memo.running.map Computation.task).filter named := by
      rw [List.filter_map]
      rfl
    _ = (w.works.filter (·.name ≠ work.name)).map Work.task := by
      rw [h.running, List.filter_map]
      rfl
    _ = (w.works.filter (·.owner ≠ work.owner)).map Work.task := by
      congr 1
      refine List.filter_congr fun other hother => ?_
      simp only [ne_eq, h.name_eq_iff hwork hother]

theorem Tidy.attached_finish (h : Tidy w) {work : Work} (outcome : Except Failure String) :
    ∀ a ∈ w.attached, a.2 ∈ (w.finish work outcome).underway ∨
      ∃ told, (a.2, told) ∈ (w.finish work outcome).ended ∧
        ⟨a.1, told, false⟩ ∈ (w.finish work outcome).settled := by
  intro a ha
  rcases h.attached a ha with hunder | ⟨told, hended, hsettled⟩
  · by_cases hown : a.2 = work.owner
    · refine .inr ⟨outcome, List.mem_append_right _ (by rw [hown]; exact List.mem_cons_self), ?_⟩
      refine List.mem_append_right _ (List.mem_map.mpr ⟨a, ?_, rfl⟩)
      exact List.mem_filter.mpr ⟨ha, by simpa using hown⟩
    · left
      rw [underway_finish]
      exact List.mem_filter.mpr ⟨hunder, by simpa using hown⟩
  · exact .inr ⟨told, List.mem_append_left _ hended, List.mem_append_left _ hsettled⟩

theorem Tidy.finish (h : Tidy w) {work : Work} (hwork : work ∈ w.works)
    (outcome : Except Failure String) : Tidy (w.finish work outcome) := by
  have howner : work.owner ∈ w.underway := List.mem_map_of_mem hwork
  have hsub : (w.finish work outcome).works.Sublist w.works := List.filter_sublist
  -- An owner passes from the computations under way to those that have ended.
  have howners : ((w.finish work outcome).underway ++
      (w.finish work outcome).ended.map (·.1)).Perm (w.underway ++ w.ended.map (·.1)) := by
    have hnodup : w.underway.Nodup := (List.nodup_append.mp h.endings).1
    have hpass : (w.underway.filter (· ≠ work.owner) ++ [work.owner]).Perm w.underway := by
      have herase : w.underway.filter (· ≠ work.owner) = w.underway.erase work.owner := by
        rw [hnodup.erase_eq_filter]
        refine List.filter_congr fun owner _ => ?_
        by_cases ho : owner = work.owner <;> simp [ho]
      rw [herase]
      exact List.perm_append_comm.trans (List.perm_cons_erase howner).symm
    have hended : (w.finish work outcome).ended.map (·.1) =
        w.ended.map (·.1) ++ [work.owner] := List.map_append
    rw [underway_finish, hended]
    refine List.Perm.trans ?_ (hpass.append_right (w.ended.map (·.1)))
    rw [List.append_assoc]
    exact List.perm_append_comm.append_left _
  exact {
    running := h.running_finish hwork outcome
    oneLine := fun pair hp => h.oneLine pair ((hsub.map Work.pair).subset hp)
    single := h.single.sublist (hsub.map Work.pair)
    endings := howners.nodup_iff.mpr h.endings
    numbered := fun owner ho => h.numbered owner (howners.mem_iff.mp ho)
    attached := h.attached_finish outcome
    once := once_finish howner outcome h.once }

theorem Tidy.waiting_started (h : Tidy w) :
    ((w.attached ++ [(w.count, w.count)]).filter (·.2 ∈ w.underway ++ [w.count])).map (·.1) =
      w.waiting ++ [w.count] := by
  -- The number of a call is that of no computation yet, so nobody waits for one of that number.
  have hold : w.attached.filter (·.2 ∈ w.underway ++ [w.count]) =
      w.attached.filter (·.2 ∈ w.underway) := by
    refine List.filter_congr fun a ha => ?_
    have hother : a.2 ≠ w.count := by
      have hmem : a.2 ∈ w.underway ++ w.ended.map (·.1) := by
        rcases h.attached a ha with hunder | ⟨told, hended, -⟩
        · exact List.mem_append_left _ hunder
        · exact List.mem_append_right _ (List.mem_map_of_mem hended)
      exact Nat.ne_of_lt (h.numbered a.2 hmem)
    simp [hother]
  rw [List.filter_append, hold]
  simp [waiting]

theorem Tidy.started (h : Tidy w) {memo : Memo Nat} {key fingerprint : String}
    (hline : '\n' ∉ fingerprint.toList)
    (hnew : ∀ c ∈ w.memo.running, c.identity ≠ identity key (some fingerprint))
    (hrunning : memo.running.map Computation.task =
      w.memo.running.map Computation.task ++ [(key, some fingerprint, w.count)]) :
    Tidy { w with
      memo
      count := w.count + 1
      works := w.works ++ [{ owner := w.count, key, fingerprint }]
      attached := w.attached ++ [(w.count, w.count)] } := by
  -- One under way for the same pair would run under the same name.
  have hpair : (key, fingerprint) ∉ w.works.map Work.pair := by
    intro hmem
    obtain ⟨work, hwork, he⟩ := List.mem_map.mp hmem
    obtain ⟨c, hc, htask⟩ := h.exists_running hwork
    have hname : work.name = identity key (some fingerprint) := by
      rw [Work.name, show work.key = key from congrArg Prod.fst he,
        show work.fingerprint = fingerprint from congrArg Prod.snd he]
    exact hnew c hc ((identity_eq_of_task htask.symm).trans hname)
  -- All numbers that were given out are below the count.
  have hunused : w.count ∉ w.underway ++ w.ended.map (·.1) := fun hmem =>
    Nat.lt_irrefl _ (h.numbered _ hmem)
  have hunderway : (w.works ++ [({ owner := w.count, key, fingerprint } : Work)]).map (·.owner) =
      w.underway ++ [w.count] := List.map_append
  exact {
    running := by rw [hrunning, h.running, List.map_append]; rfl
    oneLine := by
      intro pair hp
      rw [List.map_append] at hp
      rcases List.mem_append.mp hp with hp | hp
      · exact h.oneLine pair hp
      · rw [List.mem_singleton.mp hp]
        exact hline
    single := by
      rw [List.map_append]
      exact List.nodup_append_comm.mp (List.nodup_cons.mpr ⟨hpair, h.single⟩)
    endings := by
      rw [underway, hunderway, List.append_assoc]
      have hfront : (w.count :: (w.underway ++ w.ended.map (·.1))).Nodup :=
        List.nodup_cons.mpr ⟨hunused, h.endings⟩
      exact List.perm_middle.nodup_iff.mpr hfront
    numbered := by
      rw [underway, hunderway]
      intro owner ho
      by_cases hnew : owner = w.count
      · rw [hnew]
        exact Nat.lt_succ_self _
      · have hmem : owner ∈ w.underway ++ w.ended.map (·.1) := by simpa [hnew] using ho
        exact Nat.lt_succ_of_lt (h.numbered owner hmem)
    attached := by
      rw [underway, hunderway]
      intro a ha
      rcases List.mem_append.mp ha with ha | ha
      · exact (h.attached a ha).imp_left (List.mem_append_left _)
      · rw [List.mem_singleton.mp ha]
        exact .inl (List.mem_append_right _ List.mem_cons_self)
    once := by
      refine once_waiting ?_ h.once
      rw [waiting, underway, hunderway]
      exact h.waiting_started }

theorem Tidy.passed (h : Tidy w) {memo : Memo Nat} {works : List Work}
    (hrunning : memo.running = w.memo.running)
    (hworks : works.map Work.task = w.works.map Work.task) : Tidy { w with memo, works } := by
  have hunderway : works.map (·.owner) = w.underway := map_owner_of_task hworks
  have hpairs := map_pair_of_task hworks
  exact {
    running := by rw [hrunning, h.running, hworks]
    oneLine := by
      rw [hpairs]
      exact h.oneLine
    single := by
      rw [hpairs]
      exact h.single
    endings := by
      rw [underway, hunderway]
      exact h.endings
    numbered := by
      rw [underway, hunderway]
      exact h.numbered
    attached := by
      rw [underway, hunderway]
      exact h.attached
    once := by
      rw [waiting, underway, hunderway]
      exact h.once }

theorem Tidy.step (h : Tidy w) {event : Event}
    (hline : ∀ fingerprint, event.asked? = some fingerprint → '\n' ∉ fingerprint.toList) :
    Tidy (w.step event) := by
  have hturn := turn_step w event
  generalize w.step event = next at hturn
  -- Only a start and an end concern the computations; the other turns add a call, or nothing.
  cases hturn with
  | @found memo text hrunning =>
    exact {
      running := by rw [← h.running, ← hrunning]
      oneLine := h.oneLine
      single := h.single
      endings := h.endings
      numbered := fun owner ho => Nat.lt_succ_of_lt (h.numbered owner ho)
      attached := fun a ha => (h.attached a ha).imp_right fun ⟨told, hended, hsettled⟩ =>
        ⟨told, hended, List.mem_append_left _ hsettled⟩
      once := once_settled rfl h.once }
  | @joined memo c hc hrunning =>
    obtain ⟨work, hwork, htask⟩ := h.exists_work hc
    have howner : c.owner ∈ w.underway := by
      have he : work.owner = c.owner := congrArg (·.2.2) htask
      rw [← he]
      exact List.mem_map_of_mem hwork
    have hwaiting : ((w.attached ++ [(w.count, c.owner)]).filter (·.2 ∈ w.underway)).map (·.1) =
        w.waiting ++ [w.count] := by
      rw [List.filter_append]
      simp [howner, waiting]
    exact {
      running := by rw [hrunning, h.running]
      oneLine := h.oneLine
      single := h.single
      endings := h.endings
      numbered := fun owner ho => Nat.lt_succ_of_lt (h.numbered owner ho)
      attached := fun a ha => by
        rcases List.mem_append.mp ha with ha | ha
        · exact h.attached a ha
        · rw [List.mem_singleton.mp ha]
          exact .inl howner
      once := once_waiting hwaiting h.once }
  | @started memo key fingerprint hasked hnew hrunning =>
    exact h.started (hline fingerprint hasked) hnew hrunning
  | @passed memo works hrunning hworks => exact h.passed hrunning hworks
  | @ended work outcome hwork => exact h.finish hwork outcome

theorem Tidy.run (lifetime bound : Nat) {events : List Event}
    (hline : ∀ event ∈ events, ∀ fingerprint, event.asked? = some fingerprint →
      '\n' ∉ fingerprint.toList) : Tidy ((Workshop.opened lifetime bound).run events) := by
  induction events using List.reverseRecOn with
  | nil => exact .opened lifetime bound
  | append_singleton events event ih =>
    rw [run_concat]
    refine (ih fun earlier he => hline earlier (List.mem_append_left _ he)).step ?_
    exact hline event (List.mem_append_right _ List.mem_cons_self)

end DomainRules.Memo.Workshop
