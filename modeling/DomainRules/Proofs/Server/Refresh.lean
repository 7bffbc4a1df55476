import DomainRules.Proofs.Supply.SingleFlight
import DomainRules.Server

namespace DomainRules

theorem Holding.snapshot?_touch (holding : Holding) (now : Number) :
    (holding.touch now).snapshot? = holding.snapshot? := by
  unfold snapshot? touch
  cases holding.held <;> rfl

namespace Supply

variable {ι : Type} {supply next : Supply ι} {now : Number}
  {reported : Except Failure (Option String)} {data : Except Failure Bytes}
  {outcome : Except Failure Snapshot}

/-- A refresh that waits for a probe ends with the replies to its requests. -/
inductive Refreshed (supply : Supply ι) (now : Number) (reported : Except Failure (Option String))
    (data : Except Failure Bytes) (next : Supply ι) (outcome : Except Failure Snapshot) : Prop where
  | probed (hended : (supply.probed now reported).2.1 = .ended supply.callers outcome)
    (hnext : (supply.probed now reported).1 = next)
  | downloaded (hdownloads : (supply.probed now reported).2.1 = .downloads)
    (hended : ((supply.probed now reported).1.downloaded now data).2.1 =
      .ended supply.callers outcome)
    (hnext : ((supply.probed now reported).1.downloaded now data).1 = next)

theorem exists_refreshed (h : supply.outstanding = [.probe]) (now : Number)
    (reported : Except Failure (Option String)) (data : Except Failure Bytes) :
    ∃ next outcome, supply.Refreshed now reported data next outcome ∧ next.phase = .idle := by
  obtain ⟨hdownloads, hout, hcallers⟩ | ⟨outcome, hended, hidle⟩ := advances_probed h now reported
  · obtain ⟨outcome, hended, hidle⟩ := ends_downloaded hout now data
    rw [hcallers] at hended
    exact ⟨_, outcome, .downloaded hdownloads hended rfl, hidle⟩
  · exact ⟨_, outcome, .probed hended rfl, hidle⟩

theorem Refreshed.unique {other : Supply ι} {result : Except Failure Snapshot}
    (h : supply.Refreshed now reported data next outcome)
    (h' : supply.Refreshed now reported data other result) : next = other ∧ outcome = result := by
  cases h with
  | probed hended hnext =>
    cases h' with
    | probed hended' hnext' =>
      exact ⟨hnext.symm.trans hnext', (Progress.ended.inj (hended.symm.trans hended')).2⟩
    | downloaded hdownloads _ _ => cases hended.symm.trans hdownloads
  | downloaded hdownloads hended hnext =>
    cases h' with
    | probed hended' _ => cases hended'.symm.trans hdownloads
    | downloaded _ hended' hnext' =>
      exact ⟨hnext.symm.trans hnext', (Progress.ended.inj (hended.symm.trans hended')).2⟩

theorem Refreshed.anonymous (h : supply.Refreshed now reported data next outcome) :
    supply.anonymous.Refreshed now reported data next.anonymous outcome := by
  have hcallers : supply.anonymous.callers = supply.callers.map fun _ => () :=
    callers_map (fun _ => ()) supply
  have hprobed := supply.probed_anonymous now reported
  cases h with
  | probed hended hnext =>
    refine .probed ?_ ?_
    · rw [hprobed, hended, hcallers]
      rfl
    · rw [hprobed, hnext]
  | downloaded hdownloads hended hnext =>
    have hdownloaded := (supply.probed now reported).1.downloaded_anonymous now data
    refine .downloaded ?_ ?_ ?_
    · rw [hprobed, hdownloads]
      rfl
    · rw [hprobed, hdownloaded, hended, hcallers]
      rfl
    · rw [hprobed, hdownloaded, hnext]

theorem Refreshed.snapshot?_eq {callers : List ι} {snapshot : Snapshot}
    (hphase : supply.phase = .probing supply.holding.snapshot? callers)
    (h : supply.Refreshed now reported data next (.ok snapshot)) :
    next.holding.snapshot? = some snapshot := by
  cases h with
  | probed hended hnext =>
    have hstep := probed_step supply now reported
    rw [hended, hnext] at hstep
    cases hstep with
    | stale hstale => exact (Phase.probing.inj (hphase.symm.trans hstale)).1
    | unchanged hsame _ =>
      rw [Holding.snapshot?_touch]
      exact (Phase.probing.inj (hphase.symm.trans hsame)).1
  | downloaded hdownloads hended hnext =>
    have hstep := downloaded_step (supply.probed now reported).1 now data
    rw [hended, hnext] at hstep
    cases hstep with
    | taken _ _ hheld =>
      rw [Holding.snapshot?, hheld]
      rfl

end Supply

namespace Traffic

variable {t : Traffic} {now : Number} {reported : Except Failure (Option String)}
  {data : Except Failure Bytes}

/-- The replies of the publisher to a refresh, and its end. -/
def replying (now : Number) (reported : Except Failure (Option String))
    (data : Except Failure Bytes) : List Event :=
  [.probe now reported, .download now data, .close]

theorem Orderly.run_replying_of_not_isBusy (h : Orderly t) (hb : ¬ t.IsBusy) (now : Number)
    (reported : Except Failure (Option String)) (data : Except Failure Bytes) :
    t.run (replying now reported data) = t := by
  obtain ⟨hclosing, -⟩ := idle_of_not_isBusy hb
  obtain ⟨-, hwire⟩ := h.rests hb
  have hprobe : t.step (.probe now reported) = t := if_neg (by rw [hwire]; exact List.not_mem_nil)
  have hdownload : t.step (.download now data) = t := if_neg (by rw [hwire]; exact List.not_mem_nil)
  have hclose : t.step .close = t := by rw [Traffic.step, Traffic.close, hclosing]
  rw [Traffic.run, replying, List.foldl_cons, hprobe, List.foldl_cons, hdownload, List.foldl_cons,
    hclose, List.foldl_nil]

/-- A refresh that waits for its probe ends with the replies, for all who wait for it. -/
theorem Orderly.run_replying (h : Orderly t)
    (hout : t.supply.outstanding = [.probe]) {next : Supply Nat} {outcome : Except Failure Snapshot}
    (hr : t.supply.Refreshed now reported data next outcome) :
    t.run (replying now reported data) =
      { t with
          supply := next
          closing := none
          wire := []
          settled := t.settled ++ t.supply.callers.map fun caller => (caller, outcome) } := by
  have hwire : t.wire = [.probe] := h.wire.trans hout
  have hprobe : t.step (.probe now reported) =
      t.receive .probe (t.supply.probed now reported) :=
    if_pos (by rw [hwire]; exact List.mem_cons_self)
  have hleft : t.wire.erase .probe = [] := by rw [hwire]; rfl
  rw [Traffic.run, replying, List.foldl_cons, hprobe]
  cases hr with
  | probed hended hnext =>
    generalize t.supply.probed now reported = told at hended hnext
    obtain ⟨supply, progress, notices⟩ := told
    dsimp only at hended hnext
    subst hended hnext
    -- The refresh is over, so the download is not awaited.
    rw [Traffic.receive, hleft]
    rfl
  | downloaded hdownloads hended hnext =>
    generalize t.supply.probed now reported = told at hdownloads hended hnext
    obtain ⟨middle, progress, notices⟩ := told
    dsimp only at hdownloads hended hnext
    subst hdownloads
    have hdownload : (t.receive .probe (middle, .downloads, notices)).step (.download now data) =
        (t.receive .probe (middle, .downloads, notices)).receive .download
          (middle.downloaded now data) := by
      refine if_pos ?_
      rw [Traffic.receive, hleft]
      exact List.mem_cons_self
    rw [List.foldl_cons, hdownload]
    generalize middle.downloaded now data = told at hended hnext
    obtain ⟨supply, progress, more⟩ := told
    dsimp only at hended hnext
    subst hended hnext
    rw [Traffic.receive, Traffic.receive, hleft]
    rfl

end Traffic

namespace Server

variable {server : Server} {now : Number} {world : World} {isForced : Bool}

def Refreshed (server : Server) (now : Number) (world : World) (supply next : Supply Unit)
    (outcome : Except Failure Snapshot) : Prop :=
  supply.Refreshed now (Publisher.version server.settings.archiveUrl world.probe)
    (Publisher.archive server.settings.archiveUrl world.download) next outcome

theorem exists_refreshed (server : Server) (hidle : server.supply.phase = .idle) (now : Number)
    (world : World) : ∃ next outcome,
      server.Refreshed now world (server.supply.force ()).1 next outcome ∧ next.phase = .idle :=
  Supply.exists_refreshed (Supply.outstanding_force_of_idle hidle ()) now _ _

theorem runRefresh_eq {supply next : Supply Unit} {outcome : Except Failure Snapshot}
    (h : server.Refreshed now world supply next outcome) :
    ∃ notices, runRefresh server.settings.archiveUrl supply now world =
      (next, some outcome, notices) := by
  unfold runRefresh
  dsimp only
  cases h with
  | probed hended hnext =>
    generalize supply.probed now _ = told at hended hnext
    obtain ⟨middle, progress, notices⟩ := told
    dsimp only at hended hnext
    subst hended hnext
    exact ⟨_, rfl⟩
  | downloaded hdownloads hended hnext =>
    generalize supply.probed now _ = told at hdownloads hended hnext
    obtain ⟨middle, progress, notices⟩ := told
    dsimp only at hdownloads hended hnext
    subst hdownloads
    dsimp only
    generalize middle.downloaded now _ = told at hended hnext
    obtain ⟨last, progress, more⟩ := told
    dsimp only at hended hnext
    subst hended hnext
    exact ⟨_, rfl⟩

/-- A refresh that a server at rest begins never ends without an outcome. -/
theorem isSome_runRefresh (hidle : server.supply.phase = .idle) (now : Number) (world : World) :
    (runRefresh server.settings.archiveUrl (server.supply.force ()).1 now world).2.1.isSome := by
  obtain ⟨next, outcome, hrefreshed, -⟩ := server.exists_refreshed hidle now world
  obtain ⟨notices, hrun⟩ := runRefresh_eq hrefreshed
  rw [hrun]
  rfl

inductive Obtained (server : Server) (now : Number) (world : World) (isForced : Bool) :
    Server × Delivery → Prop where
  | current {snapshot : Snapshot} (hforced : isForced = false)
    (hcurrent : server.supply.holding.current? now = some snapshot) :
    Obtained server now world isForced (server, { outcome := .ok snapshot })
  | refreshed {next : Supply Unit} {outcome : Except Failure Snapshot} {notices : List Notice}
    (hasked : isForced = true ∨ server.supply.holding.current? now = none)
    (hrefreshed : server.Refreshed now world (server.supply.force ()).1 next outcome)
    (hidle : next.phase = .idle) :
    Obtained server now world isForced ({ server with supply := next }, { outcome, notices })

/-- A server at rest that is asked for an archive always has an outcome. -/
theorem obtained_obtain (hidle : server.supply.phase = .idle) (now : Number) (world : World)
    (isForced : Bool) : Obtained server now world isForced (server.obtain now world isForced) := by
  obtain ⟨next, outcome, hrefreshed, hnext⟩ := server.exists_refreshed hidle now world
  obtain ⟨notices, hrun⟩ := runRefresh_eq hrefreshed
  have hstarted : server.supply.force () = ((server.supply.force ()).1, .started) := by
    rw [Supply.force, hidle]
  -- A server at rest that needs a refresh starts it, and the refresh runs to its end.
  have hforce (hasked : (if isForced then server.supply.force () else
      server.supply.ensure now ()) = ((server.supply.force ()).1, .started)) :
      server.obtain now world isForced = ({ server with supply := next }, { outcome, notices }) := by
    unfold obtain
    rw [hasked]
    dsimp only
    rw [hrun]
    rfl
  cases hcase : isForced with
  | true =>
    rw [← hcase, hforce (by rw [hcase]; exact hstarted)]
    exact .refreshed (.inl hcase) hrefreshed hnext
  | false =>
    cases hcurrent : server.supply.holding.current? now with
    | none =>
      rw [← hcase, hforce (by rw [hcase, Supply.ensure, hcurrent]; exact hstarted)]
      exact .refreshed (.inr hcurrent) hrefreshed hnext
    | some snapshot =>
      have hheld : server.obtain now world false = (server, { outcome := .ok snapshot }) := by
        unfold obtain
        rw [Supply.ensure, hcurrent]
        rfl
      rw [hheld]
      exact .current rfl hcurrent

theorem site_obtain (hidle : server.supply.phase = .idle) (now : Number) (world : World)
    (isForced : Bool) : (server.obtain now world isForced).1.site = server.site := by
  have hobtained := obtained_obtain hidle now world isForced
  generalize server.obtain now world isForced = result at hobtained
  cases hobtained with
  | current _ _ => rfl
  | refreshed _ _ _ => rfl

/-- Whoever is given an archive is given the one that the server holds from then on. -/
theorem snapshot?_obtain (hidle : server.supply.phase = .idle) {snapshot : Snapshot}
    (h : (server.obtain now world isForced).2.outcome = .ok snapshot) :
    (server.obtain now world isForced).1.supply.holding.snapshot? = some snapshot := by
  have hobtained := obtained_obtain hidle now world isForced
  generalize server.obtain now world isForced = result at hobtained h
  cases hobtained with
  | current _ hcurrent =>
    obtain ⟨held, hheld, hsnapshot, -⟩ := Holding.exists_held_of_current? hcurrent
    cases h
    rw [Holding.snapshot?, hheld, ← hsnapshot]
    rfl
  | refreshed _ hrefreshed _ =>
    dsimp only at h
    subst h
    have hphase : (server.supply.force ()).1.phase =
        .probing (server.supply.force ()).1.holding.snapshot? [()] := by
      rw [Supply.holding_force, Supply.force, hidle]
    exact hrefreshed.snapshot?_eq hphase

/-- A server at rest, with the traffic that there was at its supply. -/
structure Rests (server : Server) (t : Traffic) : Prop where
  orderly : t.Orderly
  quiet : ¬ t.IsBusy
  supply : server.supply = t.supply.anonymous

theorem Rests.idle {t : Traffic} (h : Rests server t) : server.supply.phase = .idle := by
  obtain ⟨-, hidle⟩ := Traffic.idle_of_not_isBusy h.quiet
  rw [h.supply]
  exact (Supply.phase_map_eq_idle_iff _).mpr hidle

def traffic (server : Server) (now : Number) (world : World) (isForced : Bool) :
    List Traffic.Event :=
  (if isForced then .force else .ensure now) ::
    Traffic.replying now (Publisher.version server.settings.archiveUrl world.probe)
      (Publisher.archive server.settings.archiveUrl world.download)

/-- Asking the server for an archive is a call at its supply, which settles with what is given. -/
theorem Rests.obtain {t : Traffic} (h : Rests server t) (now : Number) (world : World)
    (isForced : Bool) :
    Rests (server.obtain now world isForced).1 (t.run (server.traffic now world isForced)) ∧
      (t.run (server.traffic now world isForced)).settled =
        t.settled ++ [(t.count, (server.obtain now world isForced).2.outcome)] := by
  have hholding : server.supply.holding = t.supply.holding := congrArg Supply.holding h.supply
  have hobtained := obtained_obtain h.idle now world isForced
  generalize server.obtain now world isForced = result at hobtained
  unfold traffic
  cases hobtained with
  | current hforced hcurrent =>
    rename_i snapshot
    rw [hholding] at hcurrent
    let served : Traffic :=
      { t with count := t.count + 1, settled := t.settled ++ [(t.count, .ok snapshot)] }
    have hserved : t.step (.ensure now) = served := Traffic.step_ensure_of_current hcurrent
    have horderly : served.Orderly := ⟨h.orderly.wire, h.orderly.closing⟩
    have hquiet : ¬ served.IsBusy := h.quiet
    rw [hforced, if_neg Bool.false_ne_true, Traffic.run_cons, hserved,
      horderly.run_replying_of_not_isBusy hquiet]
    exact ⟨⟨horderly, hquiet, h.supply⟩, rfl⟩
  | refreshed hasked hrefreshed hnext =>
    rename_i next outcome notices
    obtain ⟨hclosing, hidle⟩ := Traffic.idle_of_not_isBusy h.quiet
    have hasking : t.step (if isForced then .force else .ensure now) =
        t.take (t.supply.force t.count) := by
      rcases hasked with hforced | hcurrent
      · rw [hforced]
        rfl
      · cases isForced with
        | true => rfl
        | false => exact Traffic.step_ensure_of_outdated (hholding ▸ hcurrent)
    have horderly := (h.orderly.step (if isForced then .force else .ensure now)).1
    rw [hasking] at horderly
    rw [Traffic.run_cons, hasking]
    rw [h.orderly.take_force_eq hclosing] at horderly ⊢
    have hout := Supply.outstanding_force_of_idle hidle t.count
    -- The server does what the traffic does, but for the number of the caller.
    obtain ⟨last, result, hlast, hrest⟩ := Supply.exists_refreshed hout now
      (Publisher.version server.settings.archiveUrl world.probe)
      (Publisher.archive server.settings.archiveUrl world.download)
    have hsame : (server.supply.force ()).1 = (t.supply.force t.count).1.anonymous := by
      rw [h.supply, t.supply.force_anonymous t.count]
    have hanonymous := hlast.anonymous
    rw [← hsame] at hanonymous
    obtain ⟨rfl, rfl⟩ := hrefreshed.unique hanonymous
    have hrun := horderly.run_replying hout hlast
    rw [hrun]
    refine ⟨⟨?_, ?_, rfl⟩, ?_⟩
    · exact hrun ▸ horderly.run _
    · exact Traffic.not_isBusy_of_rest rfl hrest
    · rw [Supply.callers_force, Supply.callers_of_idle hidle]
      rfl

end Server

end DomainRules
