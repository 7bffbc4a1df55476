import Mathlib.Data.List.Induction
import DomainRules.Proofs.Rulesets.Faithful

namespace DomainRules.Desk

/-- The requests that some events make, in order. The number of a call is its place here. -/
def requestsOf (events : List Event) : List Request := events.filterMap Event.request?

/-- What is assumed of the source: its versions are those of one archive each, and they stand on
one line. -/
structure Coherent (events : List Event) : Prop where
  sameLists : ∀ {now now' : Number} {number number' : Nat} {archive archive' : Archive}
    {fingerprint : String}, .supply now number archive fingerprint ∈ events →
      .supply now' number' archive' fingerprint ∈ events → archive.SameLists archive'
  oneLine : ∀ {now : Number} {number : Nat} {archive : Archive} {fingerprint : String},
    .supply now number archive fingerprint ∈ events → '\n' ∉ fingerprint.toList

/-- A call was made, and it got the archive of a version. -/
structure Served (events : List Event) (call : RulesetCall) (fingerprint : String) : Prop where
  asked : (requestsOf events)[call.number]? = some call.request
  supplied : ∃ now, .supply now call.number call.archive fingerprint ∈ events

variable {events : List Event} {event : Event} {desk : Desk}

theorem requestsOf_concat (events : List Event) (event : Event) :
    requestsOf (events ++ [event]) = requestsOf events ++ event.request?.toList := by
  rw [requestsOf, List.filterMap_append]
  cases h : event.request? <;> simp [requestsOf, h]

theorem requestsOf_getElem?_concat {number : Nat} {request : Request}
    (h : (requestsOf events)[number]? = some request) :
    (requestsOf (events ++ [event]))[number]? = some request := by
  obtain ⟨hn, _⟩ := List.getElem?_eq_some_iff.mp h
  rw [requestsOf_concat, List.getElem?_append_left hn, h]

theorem Served.concat {call : RulesetCall} {fingerprint : String}
    (h : Served events call fingerprint) : Served (events ++ [event]) call fingerprint := by
  obtain ⟨now, hs⟩ := h.supplied
  exact ⟨requestsOf_getElem?_concat h.asked, now, List.mem_append_left _ hs⟩

theorem Served.at_notMem_name {call : RulesetCall} {fingerprint : String}
    (h : Served events call fingerprint) : '@' ∉ call.request.selection.name.toList := by
  have hmem : call.request ∈ requestsOf events := List.mem_of_getElem? h.asked
  obtain ⟨asking, _, hr⟩ := List.mem_filterMap.mp hmem
  cases asking with
  | ask segment dialect =>
    rw [← Option.some.inj hr]
    exact Selection.at_notMem_name segment
  | _ => cases hr

theorem Served.oneLine {call : RulesetCall} {fingerprint : String} (hc : Coherent events)
    (h : Served events call fingerprint) : '\n' ∉ fingerprint.toList := by
  obtain ⟨now, hs⟩ := h.supplied
  exact hc.oneLine hs

theorem Served.text_eq {a b : RulesetCall} {fingerprint : String} (hc : Coherent events)
    (ha : Served events a fingerprint) (hb : Served events b fingerprint)
    (hkey : a.request.key = b.request.key) : a.text = b.text := by
  obtain ⟨_, hsa⟩ := ha.supplied
  obtain ⟨_, hsb⟩ := hb.supplied
  exact RulesetCall.text_eq_of_key ha.at_notMem_name hb.at_notMem_name hkey (hc.sameLists hsa hsb)

/-- What holds at the desk after some events: every kept text is the text of a call under its key
for its version, all who wait for a computation asked for the same, and whoever settled did so with
the text of their own call. -/
structure Sound (events : List Event) (desk : Desk) : Prop where
  waiting : ∀ w ∈ desk.waiting, (requestsOf events)[w.1]? = some w.2
  kept : ∀ k ∈ desk.rulesets.store.kept, ∃ call fingerprint, Served events call fingerprint ∧
    call.request.key = k.key ∧ k.fingerprint = some fingerprint ∧ call.text = .ok k.text
  running : ∀ c ∈ desk.rulesets.running, ∃ fingerprint, c.fingerprint = some fingerprint ∧
    ∀ call ∈ c.callers, Served events call fingerprint ∧ call.request.key = c.key
  settled : ∀ s ∈ desk.settled, (∃ fingerprint, Served events s.call fingerprint) ∧
    s.outcome = s.call.text

theorem Sound.opened (lifetime bound : Nat) : Sound [] (opened lifetime bound) where
  waiting w hw := by cases hw
  kept k hk := by cases hk
  running c hc := by cases hc
  settled s hs := by cases hs

theorem Sound.concat (h : Sound events desk) : Sound (events ++ [event]) desk where
  waiting w hw := requestsOf_getElem?_concat (h.waiting w hw)
  kept k hk := by
    obtain ⟨call, fingerprint, hs, hkeep⟩ := h.kept k hk
    exact ⟨call, fingerprint, hs.concat, hkeep⟩
  running c hc := by
    obtain ⟨fingerprint, hf, hcallers⟩ := h.running c hc
    refine ⟨fingerprint, hf, fun call hcall => ?_⟩
    exact ⟨(hcallers call hcall).1.concat, (hcallers call hcall).2⟩
  settled s hs := by
    obtain ⟨⟨fingerprint, hserved⟩, ho⟩ := h.settled s hs
    exact ⟨⟨fingerprint, hserved.concat⟩, ho⟩

theorem count_run (lifetime bound : Nat) (events : List Event) :
    ((opened lifetime bound).run events).count = (requestsOf events).length := by
  induction events using List.reverseRecOn with
  | nil => rfl
  | append_singleton events event ih =>
    rw [run_concat, requestsOf_concat, List.length_append, ← ih]
    generalize (opened lifetime bound).run events = desk
    cases event with
    | ask segment dialect => rfl
    | supply now number archive fingerprint =>
      dsimp only [step, supply]
      split <;> rfl
    | deny number failure =>
      dsimp only [step, deny]
      split <;> rfl
    | keep now name =>
      dsimp only [step, keep]
      split <;> rfl
    | close name =>
      dsimp only [step, close]
      split <;> rfl
    | sweep now => rfl

theorem Sound.ask (h : Sound events desk) (hcount : desk.count = (requestsOf events).length)
    (segment : String) (dialect : Dialect) :
    Sound (events ++ [.ask segment dialect])
      (desk.ask { selection := .ofSegment segment, dialect }) where
  waiting w hw := by
    rcases List.mem_append.mp hw with hw | hw
    · exact h.concat.waiting w hw
    · rw [List.mem_singleton.mp hw, hcount, requestsOf_concat]
      exact List.getElem?_concat_length
  kept := h.concat.kept
  running := h.concat.running
  settled := h.concat.settled

theorem Sound.faithful (h : Sound events desk) :
    Rulesets.Faithful (Served events) desk.rulesets :=
  ⟨h.kept, h.running⟩

theorem Sound.supply (h : Sound events desk) {now : Number} {number : Nat} {archive : Archive}
    {fingerprint : String}
    (hfair : Rulesets.Fair (Served (events ++ [.supply now number archive fingerprint]))) :
    Sound (events ++ [.supply now number archive fingerprint])
      (desk.supply now number archive fingerprint) := by
  have hold : Sound (events ++ [.supply now number archive fingerprint]) desk := h.concat
  unfold Desk.supply
  split
  · exact hold
  rename_i request hlookup
  let call : RulesetCall := { number, request, archive }
  have hs : Served (events ++ [.supply now number archive fingerprint]) call fingerprint :=
    ⟨hold.waiting (number, request) (mem_waiting_of_lookup hlookup), now,
      List.mem_append_right _ List.mem_cons_self⟩
  have hbegun := hold.faithful.begun hfair hs now
  refine ⟨fun w hw => hold.waiting w (List.mem_filter.mp hw).1, hbegun.kept, hbegun.running, ?_⟩
  intro s hmem
  dsimp only at hmem
  split at hmem
  · rename_i text hanswer
    rcases List.mem_append.mp hmem with hmem | hmem
    · exact hold.settled s hmem
    · rw [List.mem_singleton.mp hmem]
      -- Only a text that is kept settles the call at once, and it was made for a call of this key
      -- and version.
      have hget := Memo.get_of_answer_kept hanswer
      exact ⟨⟨fingerprint, hs⟩, (hold.faithful.text_of_kept hfair hs hget).symm⟩
  · exact hold.settled s hmem

theorem Sound.deny (h : Sound events desk) (number : Nat) (failure : Failure) :
    Sound events (desk.deny number failure) := by
  unfold Desk.deny
  split
  · exact ⟨fun w hw => h.waiting w (List.mem_filter.mp hw).1, h.kept, h.running, h.settled⟩
  · exact h

theorem Sound.keep (h : Sound events desk) (now : Number) (name : String) :
    Sound events (desk.keep now name) := by
  unfold Desk.keep
  split
  · exact h
  rename_i c hc
  have hkeep := h.faithful.keep (List.mem_of_find?_eq_some hc) now
  exact ⟨h.waiting, hkeep.kept, hkeep.running, h.settled⟩

/-- Who waited for a computation gets what its owner computed, which is what they asked for. -/
theorem Sound.close (h : Sound events desk) (hfair : Rulesets.Fair (Served events))
    (name : String) : Sound events (desk.close name) := by
  unfold Desk.close
  split
  · exact h
  rename_i c hrun
  have hc : c ∈ desk.rulesets.running := List.mem_of_find?_eq_some hrun
  have hclose := h.faithful.close c
  refine ⟨h.waiting, hclose.kept, hclose.running, ?_⟩
  intro s hs
  rcases List.mem_append.mp hs with hs | hs
  · exact h.settled s hs
  · obtain ⟨call, hcall, rfl⟩ := List.mem_map.mp hs
    obtain ⟨version, -, hcallers⟩ := h.running c hc
    exact ⟨⟨version, (hcallers call hcall).1⟩, h.faithful.text_of_caller hfair hc hcall⟩

theorem Sound.sweep (h : Sound events desk) (now : Number) :
    Sound events { desk with rulesets := desk.rulesets.sweep now } :=
  ⟨h.waiting, (h.faithful.sweep now).kept, h.running, h.settled⟩

theorem Sound.run_of_fair (lifetime bound : Nat) (hfair : Rulesets.Fair (Served events)) :
    Sound events ((Desk.opened lifetime bound).run events) := by
  induction events using List.reverseRecOn with
  | nil => exact Sound.opened lifetime bound
  | append_singleton events event ih =>
    have h := ih (hfair.of_imp fun call version hs => hs.concat)
    have hcount := count_run lifetime bound events
    rw [run_concat]
    cases event with
    | ask segment dialect => exact h.ask hcount segment dialect
    | supply now number archive fingerprint => exact h.supply hfair
    | deny number failure => exact h.concat.deny number failure
    | keep now name => exact h.concat.keep now name
    | close name => exact h.concat.close hfair name
    | sweep now => exact h.concat.sweep now

theorem Coherent.fair (hc : Coherent events) : Rulesets.Fair (Served events) where
  text_eq ha hb hkey := ha.text_eq hc hb hkey
  version_eq ha hb hname := (Memo.identity_inj (ha.oneLine hc) (hb.oneLine hc) hname).2

theorem Sound.run (lifetime bound : Nat) (hc : Coherent events) :
    Sound events ((Desk.opened lifetime bound).run events) :=
  .run_of_fair lifetime bound hc.fair

/-- Keeping and sharing are transparent. A call that settles after it got a snapshot is one of the
requests, its archive is the one that the source gave to it, and its outcome is what reading,
expanding and rendering its list from that archive gives. -/
theorem outcome_eq_render (lifetime bound : Nat) (hc : Coherent events) :
    ∀ s ∈ ((opened lifetime bound).run events).settled,
      (requestsOf events)[s.call.number]? = some s.call.request ∧
      (∃ now fingerprint, .supply now s.call.number s.call.archive fingerprint ∈ events) ∧
      s.outcome =
        (expandMember s.call.archive s.call.request.selection.filter
          s.call.request.selection.name).result.map (render s.call.request.dialect) := by
  intro s hs
  obtain ⟨⟨fingerprint, hserved⟩, ho⟩ := (Sound.run lifetime bound hc).settled s hs
  obtain ⟨now, hsupplied⟩ := hserved.supplied
  exact ⟨hserved.asked, ⟨now, fingerprint, hsupplied⟩, ho⟩

def editionOf (fingerprint : String) : Archive :=
  if fingerprint = "v1" then ⟨[("a", .text "domain:x.com")]⟩ else ⟨[("a", .text "full:y.com")]⟩

/-- Two calls share a computation while a third computes the same list of a later version; the
earlier version is kept last, and a fourth call finds it. -/
def overlapping : List Event :=
  let now : Number := .finite 0
  [.ask "a" .surge, .ask "a" .surge, .ask "a" .surge,
    .supply now 0 (editionOf "v1") "v1", .supply now 1 (editionOf "v1") "v1",
    .supply now 2 (editionOf "v2") "v2", .keep now "v2\nsurge:a", .close "v2\nsurge:a",
    .keep now "v1\nsurge:a", .close "v1\nsurge:a",
    .ask "a" .surge, .supply now 3 (editionOf "v1") "v1"]

theorem supply_mem_overlapping {now : Number} {number : Nat} {archive : Archive}
    {fingerprint : String} (h : .supply now number archive fingerprint ∈ overlapping) :
    archive = editionOf fingerprint ∧ '\n' ∉ fingerprint.toList := by
  simp only [overlapping, List.mem_cons, reduceCtorEq, Event.supply.injEq, List.not_mem_nil,
    false_or, or_false] at h
  rcases h with ⟨_, _, rfl, rfl⟩ | ⟨_, _, rfl, rfl⟩ | ⟨_, _, rfl, rfl⟩ | ⟨_, _, rfl, rfl⟩
  all_goals exact ⟨rfl, by decide⟩

/-- A computation with a text is kept and closed: all who waited for it settle with the text. -/
theorem close_keep_of_running {name text : String} {c : Memo.Computation RulesetCall}
    (hrunning : desk.running? name = some c) (htext : c.owner.text = .ok text) (now : Number) :
    (desk.keep now name).close name =
      { desk with
          rulesets := Memo.finish desk.rulesets now c (.ok text)
          settled := desk.settled ++ c.callers.map fun call => { call, outcome := .ok text } } := by
  have hkeep : desk.keep now name =
      { desk with rulesets := desk.rulesets.set now c.key text c.fingerprint } := by
    rw [keep, hrunning]
    simp only [Rulesets.keep, htext]
  have hstill : (desk.keep now name).running? name = some c := by
    rw [hkeep]
    exact hrunning
  rw [close, hstill, hkeep]
  simp only [htext]
  rfl

def overlappingCall (number : Nat) (fingerprint : String) : RulesetCall :=
  { number, request := { selection := .ofSegment "a", dialect := .surge },
    archive := editionOf fingerprint }

theorem text_overlappingCall_first : (overlappingCall 0 "v1").text = .ok "DOMAIN-SUFFIX,x.com" := by
  have hlines : Line.ofText "domain:x.com" = [.rule ⟨.suffix, "x.com", ""⟩] := by decide +kernel
  exact RulesetCall.text_of_sole_rule (by decide +kernel) hlines (by decide +kernel)

theorem text_overlappingCall_second : (overlappingCall 2 "v2").text = .ok "DOMAIN,y.com" := by
  have hlines : Line.ofText "full:y.com" = [.rule ⟨.exact, "y.com", ""⟩] := by decide +kernel
  exact RulesetCall.text_of_sole_rule (by decide +kernel) hlines (by decide +kernel)

/-- Two calls settle with the text that they share, one with the text of the later version, and one
with the text that is kept. -/
theorem settled_overlapping :
    ((opened 60000 1).run overlapping).settled.map
        (fun s => (s.call.number, s.call.archive, s.outcome.toOption)) =
      [(2, editionOf "v2", some "DOMAIN,y.com"),
        (0, editionOf "v1", some "DOMAIN-SUFFIX,x.com"),
        (1, editionOf "v1", some "DOMAIN-SUFFIX,x.com"),
        (3, editionOf "v1", some "DOMAIN-SUFFIX,x.com")] := by
  let now : Number := .finite 0
  let supplied := (opened 60000 1).run (overlapping.take 6)
  let ends : List Event := [.keep now "v2\nsurge:a", .close "v2\nsurge:a", .keep now "v1\nsurge:a",
    .close "v1\nsurge:a"]
  have hrun : (opened 60000 1).run overlapping = (supplied.run ends).run (overlapping.drop 10) := by
    rw [← run_append, ← run_append]
    exact congrArg (opened 60000 1).run rfl
  have hends (desk : Desk) : desk.run ends =
      (((desk.keep now "v2\nsurge:a").close "v2\nsurge:a").keep now "v1\nsurge:a").close
        "v1\nsurge:a" := rfl
  have hlater : supplied.running? "v2\nsurge:a" =
      some ⟨"surge:a", some "v2", overlappingCall 2 "v2", []⟩ := by decide +kernel
  have hclosed := close_keep_of_running hlater text_overlappingCall_second now
  have hearlier : ((supplied.keep now "v2\nsurge:a").close "v2\nsurge:a").running? "v1\nsurge:a" =
      some ⟨"surge:a", some "v1", overlappingCall 0 "v1", [overlappingCall 1 "v1"]⟩ := by
    rw [hclosed]
    decide +kernel
  rw [hrun, hends, close_keep_of_running hearlier text_overlappingCall_first now, hclosed]
  decide +kernel

theorem outcome_eq_render_overlapping :
    Coherent overlapping ∧
    ((opened 60000 1).run overlapping).settled.map
        (fun s => (s.call.number, s.call.archive, s.outcome.toOption)) =
      [(2, editionOf "v2", some "DOMAIN,y.com"),
        (0, editionOf "v1", some "DOMAIN-SUFFIX,x.com"),
        (1, editionOf "v1", some "DOMAIN-SUFFIX,x.com"),
        (3, editionOf "v1", some "DOMAIN-SUFFIX,x.com")] ∧
    ∀ s ∈ ((opened 60000 1).run overlapping).settled,
      (requestsOf overlapping)[s.call.number]? = some s.call.request ∧
      (∃ now fingerprint, .supply now s.call.number s.call.archive fingerprint ∈ overlapping) ∧
      s.outcome =
        (expandMember s.call.archive s.call.request.selection.filter
          s.call.request.selection.name).result.map (render s.call.request.dialect) := by
  have hc : Coherent overlapping := by
    refine ⟨fun hs hs' => ?_, fun hs => (supply_mem_overlapping hs).2⟩
    rw [(supply_mem_overlapping hs).1, (supply_mem_overlapping hs').1]
    exact .refl _
  exact ⟨hc, settled_overlapping, outcome_eq_render 60000 1 hc⟩

end DomainRules.Desk
