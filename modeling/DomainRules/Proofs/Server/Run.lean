import DomainRules.Proofs.Rulesets.Alone
import DomainRules.Proofs.Server.Refresh
import DomainRules.Proofs.Site.Lists

/-!
The whole server. Whatever it does after its start is calls at its supply and events at its desk, so
what holds of their runs holds of the server; and between two things that it does it is at rest.
-/
namespace DomainRules

theorem Desk.suppliesOf_append (earlier later : List Desk.Event) :
    suppliesOf (earlier ++ later) = suppliesOf earlier ++ suppliesOf later :=
  List.filterMap_append

namespace Site

variable (site : Site) (moment : Moment)

theorem rulesets_serveList (dialect : Dialect) (segment : String) :
    (site.serveList moment dialect segment).site.rulesets = site.rulesets ∨
      ∃ snapshot, moment.delivery.outcome = .ok snapshot ∧
        (site.serveList moment dialect segment).site.rulesets =
          (site.rulesets.answerOne moment.now snapshot
            { selection := .ofSegment segment, dialect }).1 := by
  unfold serveList
  dsimp only
  split
  · exact .inl rfl
  · cases hdelivery : moment.delivery.outcome with
    | error failure => exact .inl rfl
    | ok snapshot => exact .inr ⟨snapshot, rfl, rfl⟩

theorem site_serveIndex (address : String) : (site.serveIndex moment address).site = site := by
  unfold serveIndex
  dsimp only
  split <;> rfl

theorem rulesets_serve (incoming : Http.Incoming) (route : Http.Route) (parameters : List String) :
    (site.serve moment incoming route parameters).site.rulesets = site.rulesets ∨
      ∃ dialect segment snapshot, moment.delivery.outcome = .ok snapshot ∧
        (site.serve moment incoming route parameters).site.rulesets =
          (site.rulesets.answerOne moment.now snapshot
            { selection := .ofSegment segment, dialect }).1 := by
  cases route with
  | health => exact .inl rfl
  | metrics => exact .inl rfl
  | home => exact .inl rfl
  | index => exact .inl (congrArg Site.rulesets (site.site_serveIndex moment incoming.address))
  | extra =>
    refine .inl ?_
    rcases parameters with - | ⟨category, - | ⟨name, parameters⟩⟩ <;> rfl
  | list dialect =>
    cases parameters with
    | nil => exact .inl rfl
    | cons segment parameters =>
      obtain hsame | ⟨snapshot, hdelivery, hnext⟩ :=
        site.rulesets_serveList moment dialect segment
      · exact .inl hsame
      · exact .inr ⟨dialect, segment, snapshot, hdelivery, hnext⟩

/-- Only the page of a list touches the rendered lists, and only with an archive that was given. -/
theorem rulesets_respond (incoming : Http.Incoming) :
    (site.respond moment incoming).site.rulesets = site.rulesets ∨
      ∃ dialect segment snapshot, moment.delivery.outcome = .ok snapshot ∧
        (site.respond moment incoming).site.rulesets =
          (site.rulesets.answerOne moment.now snapshot
            { selection := .ofSegment segment, dialect }).1 := by
  unfold respond
  cases site.resolved incoming with
  | malformed => exact .inl rfl
  | missing => exact .inl rfl
  | found route parameters =>
    dsimp only
    split
    · exact site.rulesets_serve moment incoming route parameters
    · split <;> exact .inl rfl

end Site

theorem Memo.Store.exists_limits {lifetime bound : Number} {store : Memo.Store}
    (h : Memo.Store.ofLimits lifetime bound = .ok store) :
    ∃ lifetime bound, store = { lifetime, bound } := by
  unfold Memo.Store.ofLimits at h
  split at h
  · cases h
  · split at h
    · cases h
    · split at h
      · cases h
      · split at h
        · cases h
        · split at h
          · cases h
          · exact ⟨_, _, (Except.ok.inj h).symm⟩

namespace Server

inductive Act where
  /-- The timers run down. -/
  | tick (now : Number) (world : World)
  | request (now : Number) (world : World) (incoming : Http.Incoming)
  | shutdown (code : Option Number)
  | signal (name : String)

def step (server : Server) : Act → Server
  | .tick now world => (server.tick now world).1
  | .request now world incoming => (server.respond now world incoming).1
  | .shutdown code => (server.shutdown code).1
  | .signal name => (server.signal name).1

def run (server : Server) (acts : List Act) : Server := acts.foldl step server

/-- A server, with the calls at its supply and the events at its desk that led to where it is. -/
structure Composed (first : Holding) (lifetime bound : Nat) (calls : List Traffic.Event)
    (lists : List Desk.Event) (server : Server) : Prop where
  rests : Rests server ((Traffic.opened first).run calls)
  rulesets : server.site.rulesets = ((Desk.opened lifetime bound).run lists).rulesets
  unused : server.site.rulesets.running = []
  unwaiting : ((Desk.opened lifetime bound).run lists).waiting = []
  /-- What the desk was supplied with is what calls at the supply were given. -/
  supplied : ∀ {archive fingerprint}, (archive, fingerprint) ∈ Desk.suppliesOf lists →
    ∃ caller, (caller, .ok ⟨archive, some fingerprint⟩) ∈ ((Traffic.opened first).run calls).settled

def Reached (first : Holding) (lifetime bound : Nat) (server : Server) : Prop :=
  ∃ calls lists, Composed first lifetime bound calls lists server

variable {first : Holding} {lifetime bound : Nat} {calls : List Traffic.Event}
  {lists : List Desk.Event} {server other : Server}

namespace Composed

theorem of_same (h : Composed first lifetime bound calls lists server)
    (hsupply : other.supply = server.supply)
    (hrulesets : other.site.rulesets = server.site.rulesets) :
    Composed first lifetime bound calls lists other where
  rests := ⟨h.rests.orderly, h.rests.quiet, hsupply.trans h.rests.supply⟩
  rulesets := hrulesets.trans h.rulesets
  unused := hrulesets ▸ h.unused
  unwaiting := h.unwaiting
  supplied := h.supplied

theorem obtain_calls (h : Composed first lifetime bound calls lists server) (now : Number)
    (world : World) (isForced : Bool) :
    Composed first lifetime bound (calls ++ server.traffic now world isForced) lists
        (server.obtain now world isForced).1 ∧
      ∃ caller, (caller, (server.obtain now world isForced).2.outcome) ∈
        ((Traffic.opened first).run (calls ++ server.traffic now world isForced)).settled := by
  obtain ⟨hrests, hsettled⟩ := h.rests.obtain now world isForced
  rw [← Traffic.run_append] at hrests hsettled
  have hsite := site_obtain h.rests.idle now world isForced
  rw [hsettled]
  refine ⟨⟨hrests, ?_, ?_, h.unwaiting, fun hs => ?_⟩, _,
    List.mem_append_right _ List.mem_cons_self⟩
  · rw [hsite, h.rulesets]
  · rw [hsite, h.unused]
  · obtain ⟨caller, hcaller⟩ := h.supplied hs
    rw [hsettled]
    exact ⟨caller, List.mem_append_left _ hcaller⟩

theorem answered (h : Composed first lifetime bound calls lists server) {caller : Nat}
    {archive : Archive} {fingerprint : String}
    (hgiven : (caller, .ok ⟨archive, some fingerprint⟩) ∈
      ((Traffic.opened first).run calls).settled)
    (now : Number) (dialect : Dialect) (segment : String) (hsupply : other.supply = server.supply)
    (hrulesets : other.site.rulesets =
      (server.site.rulesets.answerOne now ⟨archive, some fingerprint⟩
        { selection := .ofSegment segment, dialect }).1) :
    ∃ more, Composed first lifetime bound calls (lists ++ more) other := by
  let desk := (Desk.opened lifetime bound).run lists
  -- Nothing is being rendered at the desk, so the answer is the run of one call there.
  have hidle : desk.rulesets.running = [] := h.rulesets ▸ h.unused
  obtain ⟨hnext, hunused, hunwaiting, -⟩ :=
    Desk.run_alone hidle h.unwaiting now archive fingerprint segment dialect
  rw [h.rulesets] at hrulesets
  refine ⟨desk.aloneEvents now archive fingerprint segment dialect,
    ⟨h.rests.orderly, h.rests.quiet, hsupply.trans h.rests.supply⟩, ?_, ?_, ?_, fun hs => ?_⟩
  · rw [Desk.run_append, hrulesets]
    exact hnext.symm
  · rw [hrulesets, ← hnext]
    exact hunused
  · rw [Desk.run_append]
    exact hunwaiting
  · rw [Desk.suppliesOf_append] at hs
    rcases List.mem_append.mp hs with hs | hs
    · exact h.supplied hs
    · cases List.mem_singleton.mp hs
      exact ⟨caller, hgiven⟩

theorem swept (h : Composed first lifetime bound calls lists server) (now : Number) :
    Composed first lifetime bound calls (lists ++ [.sweep now]) (server.sweep now).1 := by
  refine ⟨⟨h.rests.orderly, h.rests.quiet, h.rests.supply⟩, ?_, h.unused, ?_, fun hs => ?_⟩
  · rw [Desk.run_concat]
    exact congrArg (Memo.sweep · now) h.rulesets
  · rw [Desk.run_concat]
    exact h.unwaiting
  · rw [Desk.suppliesOf_append] at hs
    exact h.supplied (by simpa [Desk.suppliesOf] using hs)

end Composed

/-- The server is where some calls at its supply and some events at its desk lead, and if the outcome
is an archive, then it is one with a version that one of these calls was given. -/
def Given (first : Holding) (lifetime bound : Nat) (server : Server)
    (outcome : Except Failure Snapshot) : Prop :=
  ∃ calls lists, Composed first lifetime bound calls lists server ∧
    ∀ snapshot, outcome = .ok snapshot → ∃ fingerprint,
      snapshot = ⟨snapshot.archive, some fingerprint⟩ ∧
      ∃ caller, (caller, .ok snapshot) ∈ ((Traffic.opened first).run calls).settled

theorem Given.of_error {failure : Failure} (h : Reached first lifetime bound server) :
    Given first lifetime bound server (.error failure) := by
  obtain ⟨calls, lists, h⟩ := h
  exact ⟨calls, lists, h, nofun⟩

theorem Given.respond {outcome : Except Failure Snapshot}
    (h : Given first lifetime bound server outcome) (moment : Moment)
    (hmoment : moment.delivery.outcome = outcome) (incoming : Http.Incoming) :
    Reached first lifetime bound
      { server with site := (server.site.respond moment incoming).site } := by
  obtain ⟨calls, lists, hserver, hgiven⟩ := h
  obtain hsame | ⟨dialect, segment, snapshot, hdelivery, hnext⟩ :=
    server.site.rulesets_respond moment incoming
  · exact ⟨calls, lists, hserver.of_same rfl hsame⟩
  · obtain ⟨fingerprint, hversion, caller, hcaller⟩ := hgiven snapshot (hmoment ▸ hdelivery)
    rw [hversion] at hcaller hnext
    let next : Server := { server with site := (server.site.respond moment incoming).site }
    have hsupply : next.supply = server.supply := rfl
    obtain ⟨more, hmore⟩ := hserver.answered hcaller moment.now dialect segment hsupply hnext
    exact ⟨calls, lists ++ more, hmore⟩

namespace Reached

theorem of_same (h : Reached first lifetime bound server) (hsupply : other.supply = server.supply)
    (hrulesets : other.site.rulesets = server.site.rulesets) :
    Reached first lifetime bound other := by
  obtain ⟨calls, lists, h⟩ := h
  exact ⟨calls, lists, h.of_same hsupply hrulesets⟩

theorem obtain_delivery (h : Reached first lifetime bound server) (now : Number) (world : World)
    (isForced : Bool) : Reached first lifetime bound (server.obtain now world isForced).1 := by
  obtain ⟨calls, lists, h⟩ := h
  exact ⟨_, lists, (h.obtain_calls now world isForced).1⟩

theorem refreshIndex (h : Reached first lifetime bound server) (now : Number) (world : World)
    (onFailure : String) :
    Reached first lifetime bound (server.refreshIndex now world onFailure).1 := by
  unfold Server.refreshIndex
  split
  · exact h
  · exact (h.obtain_delivery now world false).of_same rfl rfl

theorem refresh (h : Reached first lifetime bound server) (now : Number) (world : World) :
    Reached first lifetime bound (server.refresh now world).1 := by
  have hnext := h.obtain_delivery now world true
  unfold Server.refresh
  dsimp only
  split
  · exact hnext
  · split
    · exact hnext
    · exact hnext.refreshIndex now world _

theorem sweep (h : Reached first lifetime bound server) (now : Number) :
    Reached first lifetime bound (server.sweep now).1 := by
  obtain ⟨calls, lists, h⟩ := h
  exact ⟨calls, _, h.swept now⟩

theorem tick (h : Reached first lifetime bound server) (now : Number) (world : World) :
    Reached first lifetime bound (server.tick now world).1 := by
  have hsweep : Reached first lifetime bound
      (if server.sweeping.isRunning then server.sweep now else (server, [])).1 := by
    split
    · exact h.sweep now
    · exact h
  unfold Server.tick
  generalize (if server.sweeping.isRunning then server.sweep now else (server, [])) = swept
    at hsweep
  obtain ⟨middle, notices⟩ := swept
  have hrefresh : Reached first lifetime bound
      (if middle.refreshing.isRunning then middle.refresh now world else (middle, [])).1 := by
    split
    · exact hsweep.refresh now world
    · exact hsweep
  exact hrefresh.of_same rfl rfl

theorem given_obtain (h : Reached first lifetime bound server) (now : Number) (world : World)
    (isForced : Bool) :
    Given first lifetime bound (server.obtain now world isForced).1
      (server.obtain now world isForced).2.outcome := by
  obtain ⟨calls, lists, h⟩ := h
  obtain ⟨hnext, hsettled⟩ := h.obtain_calls now world isForced
  refine ⟨_, lists, hnext, fun snapshot hgiven => ?_⟩
  rw [hgiven] at hsettled
  obtain ⟨held, -, rfl⟩ := Holding.exists_held_of_snapshot? (snapshot?_obtain h.rests.idle hgiven)
  exact ⟨held.fingerprint, rfl, hsettled⟩

theorem respond (h : Reached first lifetime bound server) (now : Number) (world : World)
    (incoming : Http.Incoming) :
    Reached first lifetime bound (server.respond now world incoming).1 := by
  have hasked : Given first lifetime bound
      (if server.site.asksArchive incoming then server.obtain now world false
        else (server, { outcome := .error .emptyFingerprint })).1
      (if server.site.asksArchive incoming then server.obtain now world false
        else (server, { outcome := .error .emptyFingerprint })).2.outcome := by
    split
    · exact h.given_obtain now world false
    · exact .of_error h
  unfold Server.respond
  split
  · exact h
  · split
    · exact h
    · split
      · exact h
      · exact hasked.respond _ rfl incoming

theorem shutdown (h : Reached first lifetime bound server) (code : Option Number) :
    Reached first lifetime bound (server.shutdown code).1 := by
  unfold Server.shutdown
  split
  · exact h
  · exact h.of_same rfl rfl

theorem step (h : Reached first lifetime bound server) (act : Act) :
    Reached first lifetime bound (server.step act) := by
  cases act with
  | tick now world => exact h.tick now world
  | request now world incoming => exact h.respond now world incoming
  | shutdown code => exact h.shutdown code
  | signal name =>
    rw [Server.step, Server.signal]
    split
    · exact h.shutdown _
    · exact h

theorem run (h : Reached first lifetime bound server) (acts : List Act) :
    Reached first lifetime bound (server.run acts) := by
  induction acts generalizing server with
  | nil => exact h
  | cons act acts ih => exact ih (h.step act)

theorem start (h : Reached first lifetime bound server.restore.1) (now : Number) (world : World) :
    Reached first lifetime bound (server.start now world).1 := by
  have hindexed := h.refreshIndex now world "Failed to build initial list index"
  unfold Server.start
  generalize server.restore = restored at hindexed
  obtain ⟨middle, notices⟩ := restored
  dsimp only at hindexed ⊢
  generalize middle.refreshIndex now world _ = indexed at hindexed
  obtain ⟨built, more⟩ := indexed
  let working : Server := { built with
    refreshing := built.refreshing.start
    sweeping := built.sweeping.start }
  have hworking : Reached first lifetime bound working := of_same hindexed rfl rfl
  have hrefreshed : Reached first lifetime bound
      (if working.refreshing.isEnabled then working.refresh now world else (working, [])).1 := by
    split
    · exact hworking.refresh now world
    · exact hworking
  exact hrefreshed.of_same rfl rfl

end Reached

theorem exists_ofSettings_eq {settings : Settings} {cacheFile indexFile : Option FileSlot}
    (h : ofSettings settings cacheFile indexFile = .ok server) :
    ∃ lifetime bound, server.site.rulesets = { store := { lifetime, bound } } ∧
      server.supply.phase = .idle := by
  unfold ofSettings at h
  cases hstore : Memo.Store.ofLimits (.ofNat (1000 * settings.answerLifetime))
      (.ofNat settings.answerLimit) with
  | error failure =>
    rw [hstore] at h
    cases h
  | ok store =>
    rw [hstore] at h
    obtain ⟨lifetime, bound, rfl⟩ := Memo.Store.exists_limits hstore
    cases h
    exact ⟨lifetime, bound, rfl, rfl⟩

theorem exists_reached_restore {settings : Settings} {cacheFile indexFile : Option FileSlot}
    (h : ofSettings settings cacheFile indexFile = .ok server) :
    ∃ lifetime bound, Reached server.restore.1.supply.holding lifetime bound server.restore.1 := by
  obtain ⟨lifetime, bound, hempty, hphase⟩ := exists_ofSettings_eq h
  have hsite : server.restore.1.site = server.site := by
    unfold restore
    split <;> rfl
  have hidle : server.restore.1.supply.phase = .idle := by
    unfold restore
    split <;> exact hphase
  have hrulesets : server.restore.1.site.rulesets = { store := { lifetime, bound } } := by
    rw [hsite, hempty]
  refine ⟨lifetime, bound, [], [], ⟨.opened _, Traffic.not_isBusy_opened _, ?_⟩, hrulesets, ?_,
    rfl, nofun⟩
  · generalize server.restore.1.supply = supply at hidle
    obtain ⟨holding, phase⟩ := supply
    exact congrArg (Supply.mk holding) hidle
  · rw [hrulesets]

/-- Whatever a server does from its start on is calls at its supply, to which the archive that was
stored comes first, and events at its desk. -/
theorem exists_reached_run {settings : Settings} {cacheFile indexFile : Option FileSlot}
    (h : ofSettings settings cacheFile indexFile = .ok server) (now : Number) (world : World)
    (acts : List Act) :
    ∃ lifetime bound, Reached server.restore.1.supply.holding lifetime bound
      ((server.start now world).1.run acts) := by
  obtain ⟨lifetime, bound, hrestored⟩ := exists_reached_restore h
  exact ⟨lifetime, bound, (hrestored.start now world).run acts⟩

/-- Between two things that a started server does, no refresh runs and no list is being rendered. -/
theorem idle_run {settings : Settings} {cacheFile indexFile : Option FileSlot}
    (h : ofSettings settings cacheFile indexFile = .ok server) (now : Number) (world : World)
    (acts : List Act) :
    ((server.start now world).1.run acts).supply.phase = .idle ∧
      ((server.start now world).1.run acts).site.rulesets.running = [] := by
  obtain ⟨lifetime, bound, calls, lists, hreached⟩ := exists_reached_run h now world acts
  exact ⟨hreached.rests.idle, hreached.unused⟩

/-- Whatever a server did before, the page of a list is made of the archive that it is given for the
page, as long as the versions tell apart the archives that it was given. -/
theorem Composed.outgoing_respond (h : Composed first lifetime bound calls lists server)
    {now : Number} {world : World} {incoming : Http.Incoming} {archive : Archive}
    {fingerprint segment : String} {dialect : Dialect}
    (hgiven : (server.obtain now world false).2.outcome = .ok ⟨archive, some fingerprint⟩)
    (hsupplies : Discernible ((archive, fingerprint) :: Desk.suppliesOf lists))
    (hget : incoming.method = "GET")
    (hroute : server.site.resolved incoming = .found (.list dialect) [segment])
    (hn : (Selection.ofSegment segment).name ≠ "") :
    (server.respond now world incoming).2.1 =
      opened (.page (Site.listPage dialect
        ((expandMember archive (Selection.ofSegment segment).filter
          (Selection.ofSegment segment).name).result.map (render dialect)))) := by
  -- What resolves has a path, and what has a path is well-formed, so the server comes to the page.
  have hpath : incoming.path?.isSome := by
    unfold Site.resolved at hroute
    cases hp : incoming.path? with
    | some path => rfl
    | none =>
      rw [hp] at hroute
      cases hroute
  have hwell : incoming.isWellFormed = true := by
    unfold Http.Incoming.path? at hpath
    split at hpath
    · assumption
    · cases hpath
  have hasks : server.site.asksArchive incoming = true := by
    unfold Site.asksArchive Http.Incoming.isReading
    rw [hroute, hget]
    simp [hn]
  have hmethod : incoming.method ≠ "OPTIONS" := by
    rw [hget]
    decide
  -- Being given an archive changes nothing about the pages.
  have hsite := site_obtain h.rests.idle now world false
  unfold Server.respond
  rw [hwell, Option.isNone_eq_false_iff.mpr hpath, if_neg hmethod, hasks]
  generalize server.obtain now world false = obtained at hgiven hsite
  obtain ⟨middle, delivery⟩ := obtained
  dsimp only at hgiven hsite
  simp only [Bool.not_true, Bool.false_eq_true, if_false, if_true]
  rw [← hsite] at hroute
  have hrulesets := h.rulesets
  rw [← hsite] at hrulesets
  exact congrArg opened
    (Site.outgoing_respond_of_supplied hrulesets hgiven hsupplies hget hroute hn)

end Server

end DomainRules
