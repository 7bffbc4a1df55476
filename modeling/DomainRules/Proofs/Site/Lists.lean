import DomainRules.Proofs.Expansion.Faults
import DomainRules.Proofs.Http.Routes
import DomainRules.Proofs.Rulesets.Transparency
import DomainRules.Site

namespace DomainRules

open Http

namespace Desk

def suppliesOf (events : List Event) : List (Archive × String) :=
  events.filterMap fun event => match event with
    | .supply _ _ archive fingerprint => some (archive, fingerprint)
    | _ => none

end Desk

/-- Archives of one version have the same lists, and no name of a computation stands for two
versions. -/
structure Discernible (supplies : List (Archive × String)) : Prop where
  sameLists : ∀ {archive other : Archive} {fingerprint : String},
    (archive, fingerprint) ∈ supplies → (other, fingerprint) ∈ supplies → archive.SameLists other
  apart : ∀ {supply other : Archive × String} {key more : String}, supply ∈ supplies →
    other ∈ supplies → Memo.identity key (some supply.2) = Memo.identity more (some other.2) →
    supply.2 = other.2

/-- A call for a list that a path segment can name, with an archive that was supplied. -/
structure Licensed (supplies : List (Archive × String)) (call : RulesetCall)
    (fingerprint : String) : Prop where
  plain : '@' ∉ call.request.selection.name.toList
  supplied : (call.archive, fingerprint) ∈ supplies

theorem Discernible.fair {supplies : List (Archive × String)} (h : Discernible supplies) :
    Rulesets.Fair (Licensed supplies) where
  text_eq ha hb hkey :=
    RulesetCall.text_eq_of_key ha.plain hb.plain hkey (h.sameLists ha.supplied hb.supplied)
  version_eq ha hb hname := h.apart ha.supplied hb.supplied hname

namespace Desk

variable {events : List Event}

theorem Served.licensed {call : RulesetCall} {fingerprint : String}
    (h : Served events call fingerprint) : Licensed (suppliesOf events) call fingerprint := by
  obtain ⟨now, hs⟩ := h.supplied
  exact ⟨h.at_notMem_name, List.mem_filterMap.mpr ⟨_, hs, rfl⟩⟩

theorem faithful_run (lifetime bound : Nat) {supplies : List (Archive × String)}
    (hsupplies : suppliesOf events ⊆ supplies) (h : Discernible supplies) :
    Rulesets.Faithful (Licensed supplies) ((opened lifetime bound).run events).rulesets := by
  have hlicensed : ∀ call fingerprint, Served events call fingerprint →
      Licensed supplies call fingerprint := by
    intro call fingerprint hs
    exact ⟨hs.licensed.plain, hsupplies hs.licensed.supplied⟩
  have hsound := Sound.run_of_fair lifetime bound (h.fair.of_imp hlicensed)
  exact hsound.faithful.of_imp hlicensed

end Desk

namespace Site

variable {site : Site} {moment : Moment} {incoming : Incoming} {dialect : Dialect}
  {segment : String}

theorem outgoing_respond_list (hget : incoming.method = "GET")
    (hroute : site.resolved incoming = .found (.list dialect) [segment]) :
    (site.respond moment incoming).outgoing =
      finished incoming (site.serveList moment dialect segment).outgoing := by
  have hreading : incoming.isReading = true := by
    rw [Incoming.isReading, hget]
    rfl
  rw [respond, hroute]
  dsimp only
  rw [if_pos hreading]
  rfl

theorem finished_of_get (hget : incoming.method = "GET") (outgoing : Outgoing) :
    finished incoming outgoing = outgoing := by
  have hbody : incoming.isBodiless = false := by
    rw [Incoming.isBodiless, hget]
    rfl
  cases outgoing with
  | page page =>
    rw [finished, hbody]
    rfl
  | standard status => rfl

theorem outgoing_serveList (h : (Selection.ofSegment segment).name ≠ "") {snapshot : Snapshot}
    (hdelivery : moment.delivery.outcome = .ok snapshot) :
    (site.serveList moment dialect segment).outgoing =
      .page (listPage dialect (site.rulesets.answerOne moment.now snapshot
        { selection := .ofSegment segment, dialect }).2.1) := by
  rw [serveList]
  dsimp only
  rw [if_neg h, hdelivery]

variable {archive : Archive} {selection : Selection}

/-- Whatever was asked for before, and whatever of it is still computed, the page of a list is made
of what the archive holds. -/
theorem outgoing_respond_of_supplied {lifetime bound : Nat} {events : List Desk.Event}
    {fingerprint : String}
    (hrulesets : site.rulesets = ((Desk.opened lifetime bound).run events).rulesets)
    (hdelivery : moment.delivery.outcome = .ok ⟨archive, some fingerprint⟩)
    (hsupplies : Discernible ((archive, fingerprint) :: Desk.suppliesOf events))
    (hget : incoming.method = "GET")
    (hroute : site.resolved incoming = .found (.list dialect) [segment])
    (hn : (Selection.ofSegment segment).name ≠ "") :
    (site.respond moment incoming).outgoing =
      .page (listPage dialect ((expandMember archive (Selection.ofSegment segment).filter
        (Selection.ofSegment segment).name).result.map (render dialect))) := by
  have hfaithful := Desk.faithful_run lifetime bound
    (List.subset_cons_self (archive, fingerprint) (Desk.suppliesOf events)) hsupplies
  have hlicensed : Licensed ((archive, fingerprint) :: Desk.suppliesOf events)
      { number := 0, request := { selection := .ofSegment segment, dialect }, archive }
      fingerprint :=
    ⟨Selection.at_notMem_name segment, List.mem_cons_self⟩
  rw [outgoing_respond_list hget hroute, finished_of_get hget, outgoing_serveList hn hdelivery,
    hrulesets, hfaithful.outcome_answerOne hsupplies.fair hlicensed]
  rfl

end Site

end DomainRules
