import DomainRules.Proofs.Supply.SingleFlight

namespace DomainRules.Traffic

/-- A reply of the publisher that something waited for. -/
inductive Reply where
  | probe (now : Number) (answer : Except Failure (Option String))
  | download (now : Number) (answer : Except Failure Bytes)

def reply? (t : Traffic) : Event → Option Reply
  | .probe now answer => if .probe ∈ t.wire then some (.probe now answer) else none
  | .download now answer => if .download ∈ t.wire then some (.download now answer) else none
  | _ => none

def sent? (t : Traffic) (event : Event) : Option Errand :=
  (t.step event).wire.find? (· ∉ t.wire)

def replies (t : Traffic) (events : List Event) : List Reply := History.seen step reply? t events

def requests (t : Traffic) (events : List Event) : List Errand := History.seen step sent? t events

theorem replies_concat (t : Traffic) (events : List Event) (event : Event) :
    t.replies (events ++ [event]) = t.replies events ++ ((t.run events).reply? event).toList :=
  History.seen_concat step reply? t events event

theorem requests_concat (t : Traffic) (events : List Event) (event : Event) :
    t.requests (events ++ [event]) = t.requests events ++ ((t.run events).sent? event).toList :=
  History.seen_concat step sent? t events event

def settling (t : Traffic) (event : Event) : List (Nat × Except Failure Snapshot) :=
  (t.step event).settled.drop t.settled.length

/-- The ways in which a call comes by an archive. -/
inductive Source where
  | current
  | unchanged
  | replaced
  | digested
  | retained
  deriving DecidableEq, Repr

/-- Why a refresh ends well: what was held when it began, what the publisher replied, what was asked
of it, and what is held in the end. -/
inductive Reason (first : Holding) : List Reply → List Errand → Held → Source → Prop where
  /-- The version that is held was reported, and counts as current from that time on. -/
  | unchanged {now : Number} {h : Held} (hh : first.held = some h) :
    Reason first [.probe now (.ok (some h.fingerprint))] [.probe] { h with since := now } .unchanged
  /-- Another version was reported, and its bytes were downloaded. -/
  | replaced {now later : Number} {version : String} {data : Bytes} {archive : Archive}
    (hv : ∀ h ∈ first.held, h.fingerprint ≠ version)
    (ha : Archive.ofZip first.directory data = .ok archive) :
    Reason first [.probe now (.ok (some version)), .download later (.ok data)] [.probe, .download]
      { data, archive, fingerprint := version, since := later } .replaced
  /-- No version was reported, so that the bytes that were downloaded give it. -/
  | digested {now later : Number} {data : Bytes} {archive : Archive}
    (ha : Archive.ofZip first.directory data = .ok archive) :
    Reason first [.probe now (.ok none), .download later (.ok data)] [.probe, .download]
      { data, archive, fingerprint := Sha256.hex data, since := later } .digested
  /-- The probe failed, and what was held serves on. -/
  | retained {now : Number} {failure : Failure} {h : Held} (hh : first.held = some h) :
    Reason first [.probe now (.error failure)] [.probe] h .retained

/-- Why the last event, after some others, settles a call with the archive that is held then. -/
inductive Grounds (first : Traffic) (events : List Event) (last : Event) (caller : Nat) (h : Held) :
    Source → Prop where
  /-- The call finds an archive that is current, and nothing is asked of the publisher. -/
  | current {now : Number} (hlast : last = .ensure now) (hcaller : caller = (first.run events).count)
    (hh : (first.run events).supply.holding.held = some h)
    (hfresh : (first.run events).supply.holding.isStale now h = false)
    (hsent : (first.run events).sent? last = none) : Grounds first events last caller h .current
  /-- The call started the refresh that ends now, or joined it. -/
  | refreshed {earlier during : List Event} {source : Source} (hevents : events = earlier ++ during)
    (hflies : (first.run earlier).Flies during)
    (hends : ¬ ((first.run events).step last).IsBusy)
    (hcaller : caller ∈ (first.run earlier).asking during)
    (hreason : Reason (first.run earlier).supply.holding ((first.run earlier).replies during)
      ((first.run earlier).requests during) h source) :
    Grounds first events last caller h source

/-- What is known of the traffic after some events, whatever comes next. -/
structure Traceable (first : Traffic) (events : List Event) : Prop where
  /-- A call that is fulfilled gets what is held, for exactly one reason. -/
  fulfilled : ∀ last caller snapshot, (caller, .ok snapshot) ∈ (first.run events).settling last →
    ∃ h, ((first.run events).step last).supply.holding.held = some h ∧ h.snapshot = snapshot ∧
      ∃! source, Grounds first events last caller h source
  /-- A download is requested when a probe succeeds, and then exactly if nothing is held, or no version
  was reported, or another one. -/
  downloads : ∀ event, (first.run events).sent? event = some .download ↔
    ∃ now reported, event = .probe now (.ok reported) ∧ .probe ∈ (first.run events).wire ∧
      ((first.run events).supply.holding.held = none ∨ reported = none ∨
        ∃ h version, (first.run events).supply.holding.held = some h ∧
          reported = some version ∧ version ≠ h.fingerprint)

/-- How far a refresh has come that began with some archive. -/
inductive Stage (first : Holding) : List Reply → List Errand → Traffic → Prop where
  | probing {t : Traffic} {callers : List Nat} (hc : t.closing = none)
    (hh : t.supply.holding = first) (hp : t.supply.phase = .probing first.snapshot? callers) :
    Stage first [] [.probe] t
  | downloading {t : Traffic} {callers : List Nat} {now : Number} {reported : Option String}
    (hc : t.closing = none) (hh : t.supply.holding = first)
    (hp : t.supply.phase = .downloading first.snapshot? reported callers)
    (hv : reported = none ∨ ∀ h ∈ first.held, reported ≠ some h.fingerprint) :
    Stage first [.probe now (.ok reported)] [.probe, .download] t
  | failed {t : Traffic} {callers : List Nat} {failure : Failure} {replies : List Reply}
    {requests : List Errand} (hc : t.closing = some (callers, .error failure))
    (hp : t.supply.phase = .idle) : Stage first replies requests t
  | fulfilled {t : Traffic} {callers : List Nat} {h : Held} {replies : List Reply}
    {requests : List Errand} {source : Source} (hc : t.closing = some (callers, .ok h.snapshot))
    (hp : t.supply.phase = .idle) (hh : t.supply.holding.held = some h)
    (hr : Reason first replies requests h source) : Stage first replies requests t

variable {t : Traffic} {first : Holding} {replies : List Reply} {requests : List Errand}

theorem sent?_of_wire_eq {event : Event} (h : (t.step event).wire = t.wire) :
    t.sent? event = none := by
  rw [sent?, h, List.find?_eq_none]
  intro errand hm
  simpa using hm

theorem sent?_of_wire_nil {event : Event} (h : (t.step event).wire = []) :
    t.sent? event = none := by
  rw [sent?, h, List.find?_nil]

theorem Stage.of_same {next : Traffic} (hs : Stage first replies requests t)
    (hclosing : next.closing = t.closing) (hsupply : next.supply = t.supply) :
    Stage first replies requests next := by
  cases hs with
  | probing hc hh hp =>
    exact .probing (hclosing.trans hc) (hsupply ▸ hh) (hsupply ▸ hp)
  | downloading hc hh hp hv =>
    exact .downloading (hclosing.trans hc) (hsupply ▸ hh) (hsupply ▸ hp) hv
  | failed hc hp => exact .failed (hclosing.trans hc) (hsupply ▸ hp)
  | fulfilled hc hp hh hr => exact .fulfilled (hclosing.trans hc) (hsupply ▸ hp) (hsupply ▸ hh) hr

theorem Stage.force (hs : Stage first replies requests t) (ho : Orderly t) :
    Stage first replies requests (t.take (t.supply.force t.count)) ∧
      (t.take (t.supply.force t.count)).wire = t.wire := by
  -- A call while the refresh runs joins it, whatever it waits for, and sends nothing.
  cases hs with
  | probing hc hh hp =>
    rename_i callers
    have hnext : (t.supply.force t.count).1.phase =
        .probing first.snapshot? (callers ++ [t.count]) := by rw [Supply.force, hp]
    have hbusy : t.supply.phase ≠ .idle := by
      rw [hp]
      intro hidle
      cases hidle
    have hwire : (t.supply.force t.count).1.outstanding = t.wire :=
      (Supply.outstanding_force_of_ne_idle hbusy t.count).trans ho.wire.symm
    rw [ho.take_force_eq hc]
    exact ⟨.probing hc ((Supply.holding_force t.supply t.count).trans hh) hnext, hwire⟩
  | downloading hc hh hp hv =>
    rename_i callers now reported
    have hnext : (t.supply.force t.count).1.phase =
        .downloading first.snapshot? reported (callers ++ [t.count]) := by rw [Supply.force, hp]
    have hbusy : t.supply.phase ≠ .idle := by
      rw [hp]
      intro hidle
      cases hidle
    have hwire : (t.supply.force t.count).1.outstanding = t.wire :=
      (Supply.outstanding_force_of_ne_idle hbusy t.count).trans ho.wire.symm
    rw [ho.take_force_eq hc]
    exact ⟨.downloading hc ((Supply.holding_force t.supply t.count).trans hh) hnext hv, hwire⟩
  | failed hc hp =>
    rw [take_force_of_closing hc]
    exact ⟨.failed rfl hp, rfl⟩
  | fulfilled hc hp hh hr =>
    rw [take_force_of_closing hc]
    exact ⟨.fulfilled rfl hp hh hr, rfl⟩

theorem Stage.of_probe_mem (hs : Stage first replies requests t) (ho : Orderly t)
    (hm : Errand.probe ∈ t.wire) :
    replies = [] ∧ requests = [.probe] ∧ t.supply.holding = first ∧
      ∃ callers, t.supply.phase = .probing first.snapshot? callers := by
  have hout := ho.outstanding_of_mem hm
  unfold Supply.outstanding at hout
  cases hs with
  | probing hc hh hp => exact ⟨rfl, rfl, hh, _, hp⟩
  | downloading hc hh hp hv => simp [hp] at hout
  | failed hc hp => simp [hp] at hout
  | fulfilled hc hp hh hr => simp [hp] at hout

theorem Stage.of_download_mem (hs : Stage first replies requests t) (ho : Orderly t)
    (hm : Errand.download ∈ t.wire) :
    ∃ now reported callers, replies = [.probe now (.ok reported)] ∧
      requests = [.probe, .download] ∧ t.supply.holding = first ∧
      t.supply.phase = .downloading first.snapshot? reported callers ∧
      (reported = none ∨ ∀ h ∈ first.held, reported ≠ some h.fingerprint) := by
  have hout := ho.outstanding_of_mem hm
  unfold Supply.outstanding at hout
  cases hs with
  | probing hc hh hp => simp [hp] at hout
  | downloading hc hh hp hv => exact ⟨_, _, _, rfl, rfl, hh, hp, hv⟩
  | failed hc hp => simp [hp] at hout
  | fulfilled hc hp hh hr => simp [hp] at hout

theorem Stage.probed {callers : List Nat} (ho : Orderly t) (hh : t.supply.holding = first)
    (hp : t.supply.phase = .probing first.snapshot? callers) (now : Number)
    (answer : Except Failure (Option String)) :
    Stage first [.probe now answer] (.probe :: (t.sent? (.probe now answer)).toList)
      (t.step (.probe now answer)) := by
  have hwire : t.wire = [.probe] := by rw [ho.wire, Supply.outstanding, hp]
  have hmem : Errand.probe ∈ t.wire := by rw [hwire]; exact List.mem_cons_self
  have hclosing : t.closing = none := by
    cases hc : t.closing with
    | none => rfl
    | some s =>
      have hidle := ho.closing (by rw [hc]; rfl)
      rw [hp] at hidle
      cases hidle
  have hnext : t.step (.probe now answer) = t.receive .probe (t.supply.probed now answer) :=
    if_pos hmem
  have hleft : t.wire.erase .probe = [] := by rw [hwire]; rfl
  have hstep := Supply.probed_step t.supply now answer
  revert hnext
  generalize t.supply.probed now answer = told at hstep
  obtain ⟨supply, progress, notices⟩ := told
  intro hnext
  -- Where the refresh ends nothing is sent, since nothing is left on its way.
  have hquiet : ∀ callers outcome, progress = .ended callers outcome →
      t.sent? (.probe now answer) = none := by
    rintro callers outcome rfl
    exact sent?_of_wire_nil (by rw [hnext]; exact hleft)
  cases hstep with
  | ignored hno => exact absurd hp (hno _ _)
  | failed hphase =>
    rw [hnext]
    exact .failed rfl rfl
  | stale hphase =>
    rename_i snapshot others failure
    rw [hphase] at hp
    obtain ⟨h, hheld, rfl⟩ := Holding.exists_held_of_snapshot? (Supply.Phase.probing.inj hp).1.symm
    rw [hquiet _ _ rfl, hnext]
    exact .fulfilled rfl rfl (hh ▸ hheld) (.retained hheld)
  | unchanged hphase hv =>
    rename_i snapshot others version
    rw [hphase] at hp
    obtain ⟨h, hheld, rfl⟩ := Holding.exists_held_of_snapshot? (Supply.Phase.probing.inj hp).1.symm
    have hsame : version = h.fingerprint := (Option.some.inj hv).symm
    subst hsame
    have hrest : Stage first [.probe now (.ok (some h.fingerprint))] [.probe]
        (t.receive .probe ({ holding := t.supply.holding.touch now, phase := .idle },
          .ended others (.ok h.snapshot), notices)) := by
      refine .fulfilled (h := { h with since := now }) rfl rfl ?_ (.unchanged hheld)
      rw [hh]
      simp only [Traffic.receive, Holding.touch, hheld, Option.map_some]
    rw [hquiet _ _ rfl, hnext]
    exact hrest
  | outdated hphase hv =>
    rename_i before others reported
    rw [hphase] at hp
    obtain ⟨hbefore, -⟩ := Supply.Phase.probing.inj hp
    have hsends : (t.receive .probe ({ t.supply with phase := .downloading before reported others },
        .downloads, notices)).wire = t.wire.erase .probe ++ [.download] := rfl
    have hsent : t.sent? (.probe now (.ok reported)) = some .download := by
      rw [sent?, hnext, hsends, hleft, hwire]
      rfl
    rw [hsent, hnext]
    refine .downloading hclosing hh (by rw [← hbefore]; rfl) (hv.imp_right fun hother h hheld => ?_)
    exact hother h.snapshot (by rw [hbefore, Holding.snapshot?, Option.mem_def.mp hheld]; rfl)

theorem Stage.downloaded {callers : List Nat} {probed : Number} {reported : Option String}
    (ho : Orderly t) (hh : t.supply.holding = first)
    (hp : t.supply.phase = .downloading first.snapshot? reported callers)
    (hv : reported = none ∨ ∀ h ∈ first.held, reported ≠ some h.fingerprint) (now : Number)
    (answer : Except Failure Bytes) :
    Stage first [.probe probed (.ok reported), .download now answer]
      ([.probe, .download] ++ (t.sent? (.download now answer)).toList)
      (t.step (.download now answer)) := by
  have hwire : t.wire = [.download] := by rw [ho.wire, Supply.outstanding, hp]
  have hmem : Errand.download ∈ t.wire := by rw [hwire]; exact List.mem_cons_self
  have hnext : t.step (.download now answer) =
      t.receive .download (t.supply.downloaded now answer) := if_pos hmem
  have hleft : t.wire.erase .download = [] := by rw [hwire]; rfl
  have hstep := Supply.downloaded_step t.supply now answer
  have hends := Supply.ends_downloaded (by rw [Supply.outstanding, hp]) now answer
  revert hnext
  generalize t.supply.downloaded now answer = told at hstep hends
  obtain ⟨supply, progress, notices⟩ := told
  intro hnext
  -- However the download ends, so does the refresh, and nothing is sent.
  obtain ⟨outcome, rfl, -⟩ := hends
  have hquiet : t.sent? (.download now answer) = none :=
    sent?_of_wire_nil (by rw [hnext]; exact hleft)
  rw [hquiet, hnext]
  cases hstep with
  | failed hphase => exact .failed rfl rfl
  | refused hphase => exact .failed rfl rfl
  | taken hphase ha hheld =>
    rename_i before version? data archive holding
    rw [hphase] at hp
    obtain ⟨-, rfl, -⟩ := Supply.Phase.downloading.inj hp
    rw [hh] at ha
    cases version? with
    | none => exact .fulfilled rfl rfl hheld (.digested ha)
    | some version =>
      have hother : ∀ h ∈ first.held, h.fingerprint ≠ version := by
        intro h hm he
        rcases hv with hv | hv
        · cases hv
        · exact hv h hm (congrArg some he.symm)
      exact .fulfilled rfl rfl hheld (.replaced hother ha)

theorem Stage.step (hs : Stage first replies requests t) (ho : Orderly t) {event : Event}
    (hb : (t.step event).IsBusy) :
    Stage first (replies ++ (t.reply? event).toList) (requests ++ (t.sent? event).toList)
      (t.step event) := by
  have hwait : ∀ {event next}, t.step event = next → t.reply? event = none →
      Stage first replies requests next ∧ next.wire = t.wire →
      Stage first (replies ++ (t.reply? event).toList) (requests ++ (t.sent? event).toList)
        (t.step event) := by
    rintro event next rfl hr ⟨hstage, hwire⟩
    simp only [hr, sent?_of_wire_eq hwire, Option.toList_none, List.append_nil]
    exact hstage
  cases event with
  | force => exact hwait rfl rfl (hs.force ho)
  | ensure now =>
    cases hcurrent : t.supply.holding.current? now with
    | none => exact hwait (step_ensure_of_outdated hcurrent) rfl (hs.force ho)
    | some snapshot =>
      exact hwait (step_ensure_of_current hcurrent) rfl ⟨hs.of_same rfl rfl, rfl⟩
  | probe now answer =>
    by_cases hm : Errand.probe ∈ t.wire
    · obtain ⟨rfl, rfl, hh, callers, hp⟩ := hs.of_probe_mem ho hm
      have hreply : t.reply? (.probe now answer) = some (.probe now answer) := if_pos hm
      rw [hreply]
      exact Stage.probed ho hh hp now answer
    · exact hwait (if_neg hm) (if_neg hm) ⟨hs, rfl⟩
  | download now answer =>
    by_cases hm : Errand.download ∈ t.wire
    · obtain ⟨probed, reported, callers, rfl, rfl, hh, hp, hv⟩ := hs.of_download_mem ho hm
      have hreply : t.reply? (.download now answer) = some (.download now answer) := if_pos hm
      rw [hreply]
      exact Stage.downloaded ho hh hp hv now answer
    · exact hwait (if_neg hm) (if_neg hm) ⟨hs, rfl⟩
  | close =>
    -- A refresh whose outcome is known would be over now.
    cases hc : t.closing with
    | none =>
      have hsame : t.step .close = t := by rw [Traffic.step, Traffic.close, hc]
      exact hwait hsame rfl ⟨hs, rfl⟩
    | some s =>
      have hidle := ho.closing (by rw [hc]; rfl)
      exact absurd hb (not_isBusy_close hidle)

theorem Stage.begin (ho : Orderly t) (hn : ¬ t.IsBusy) {event : Event}
    (hb : (t.step event).IsBusy) :
    Stage t.supply.holding (t.reply? event).toList (t.sent? event).toList (t.step event) := by
  obtain ⟨hclosing, hidle⟩ := idle_of_not_isBusy hn
  obtain ⟨-, hwire⟩ := ho.rests hn
  -- Two events may begin a refresh, and both do it in the way of a forced one.
  have hstart : ∀ {event}, t.step event = t.take (t.supply.force t.count) →
      t.reply? event = none →
      Stage t.supply.holding (t.reply? event).toList (t.sent? event).toList (t.step event) := by
    intro event he hr
    have hforce : t.supply.force t.count =
        ({ t.supply with phase := .probing t.supply.holding.snapshot? [t.count] }, .started) := by
      rw [Supply.force, hidle]
    have htake := ho.take_force_eq hclosing
    rw [hforce] at htake
    have hsent : t.sent? event = some .probe := by
      rw [sent?, he, hforce, htake, hwire]
      rfl
    rw [hr, hsent, he, hforce, htake]
    exact .probing hclosing rfl rfl
  have hstay : ∀ {event}, t.step event = t → ¬ (t.step event).IsBusy := by
    intro event he
    rw [he]
    exact hn
  cases event with
  | force => exact hstart rfl rfl
  | ensure now =>
    cases hcurrent : t.supply.holding.current? now with
    | none => exact hstart (step_ensure_of_outdated hcurrent) rfl
    | some snapshot =>
      rw [step_ensure_of_current hcurrent] at hb
      exact absurd hb hn
  | probe now answer =>
    have hm : Errand.probe ∉ t.wire := by rw [hwire]; exact List.not_mem_nil
    exact absurd hb (hstay (if_neg hm))
  | download now answer =>
    have hm : Errand.download ∉ t.wire := by rw [hwire]; exact List.not_mem_nil
    exact absurd hb (hstay (if_neg hm))
  | close => exact absurd hb (not_isBusy_close hidle)

theorem Stage.run (ho : Orderly t) {during : List Event} (hf : t.Flies during) :
    Stage t.supply.holding (t.replies during) (t.requests during) (t.run during) := by
  obtain ⟨hn, hne, hbusy⟩ := hf
  induction during using List.reverseRecOn with
  | nil => exact absurd rfl hne
  | append_singleton during event ih =>
    have hnext : ((t.run during).step event).IsBusy := by
      rw [← run_concat]
      exact hbusy _ List.prefix_rfl (by simp)
    rw [run_concat, replies_concat, requests_concat]
    rcases during.eq_nil_or_concat with rfl | ⟨front, last, hd⟩
    · exact Stage.begin ho hn hnext
    · have hearlier := ih (by simp [hd]) fun part hp =>
        hbusy part (hp.trans (List.prefix_append during [event]))
      exact hearlier.step (ho.run during) hnext

/-- Whenever a refresh runs, it has run since the events that began it. -/
theorem exists_flies (hn : ¬ t.IsBusy) {events : List Event} (hb : (t.run events).IsBusy) :
    ∃ earlier during, events = earlier ++ during ∧ (t.run earlier).Flies during := by
  induction events using List.reverseRecOn with
  | nil => exact absurd hb hn
  | append_singleton events event ih =>
    rw [run_concat] at hb
    by_cases hbefore : (t.run events).IsBusy
    · obtain ⟨earlier, during, rfl, hn', hne, hbusy⟩ := ih hbefore
      refine ⟨earlier, during ++ [event], List.append_assoc earlier during [event], hn',
        by simp, fun part hp hpart => ?_⟩
      rcases List.prefix_concat_iff.mp hp with rfl | hp
      · rw [← run_append, ← List.append_assoc, run_concat]
        exact hb
      · exact hbusy part hp hpart
    · refine ⟨events, [event], rfl, hbefore, by simp, fun part hp hpart => ?_⟩
      have hone : part = [event] := by
        rcases List.prefix_concat_iff.mp (show part <+: [] ++ [event] from hp) with he | he
        · exact he
        · exact absurd (List.prefix_nil.mp he) hpart
      rw [hone]
      exact hb

theorem Flies.unique {earlier other during rest : List Event}
    (he : earlier ++ during = other ++ rest) (hf : (t.run earlier).Flies during)
    (hg : (t.run other).Flies rest) : earlier = other := by
  have hshort : ∀ {one two one' two' : List Event}, one ++ one' = two ++ two' →
      (t.run one).Flies one' → (t.run two).Flies two' → two <+: one := by
    intro one two one' two' he hone htwo
    rcases List.append_eq_append_iff.mp he with ⟨part, rfl, rfl⟩ | ⟨part, rfl, -⟩
    · -- The refresh of the shorter beginning would run where the other one begins.
      by_cases hpart : part = []
      · simp [hpart]
      · refine absurd (hone.2.2 part (List.prefix_append part two') hpart) ?_
        rw [← run_append]
        exact htwo.1
    · exact List.prefix_append two part
  have hone := hshort he hf hg
  have htwo := hshort he.symm hg hf
  exact htwo.eq_of_length (Nat.le_antisymm htwo.length_le hone.length_le)

/-- The replies alone tell why a refresh ended well. -/
def Source.ofReplies : List Reply → Source
  | [.probe _ (.ok (some _))] => .unchanged
  | [.probe _ (.ok (some _)), _] => .replaced
  | [.probe _ (.ok none), _] => .digested
  | _ => .retained

theorem Reason.eq_ofReplies {h : Held} {source : Source}
    (hr : Reason first replies requests h source) : source = .ofReplies replies := by
  cases hr <;> rfl

theorem Grounds.unique {first : Traffic} {events : List Event} {last : Event} {caller : Nat}
    {h : Held} {one two : Source} (hone : Grounds first events last caller h one)
    (htwo : Grounds first events last caller h two) : one = two := by
  -- A call that is served ends no refresh.
  have hserved : ∀ {now}, last = .ensure now →
      (first.run events).supply.holding.isStale now h = false →
      (first.run events).supply.holding.held = some h → (first.run events).IsBusy →
      ((first.run events).step last).IsBusy := by
    rintro now rfl hfresh hh hb
    have hcurrent : (first.run events).supply.holding.current? now = some h.snapshot := by
      rw [Holding.current?, hh]
      exact if_neg (by rw [hfresh]; exact Bool.false_ne_true)
    rw [step_ensure_of_current hcurrent]
    exact hb
  have hbusy : ∀ {earlier during}, events = earlier ++ during →
      (first.run earlier).Flies during → (first.run events).IsBusy := by
    rintro earlier during rfl hf
    rw [run_append]
    exact hf.2.2 during List.prefix_rfl hf.2.1
  cases hone with
  | current hlast hcaller hh hfresh hsent =>
    cases htwo with
    | current => rfl
    | refreshed hevents hflies hends =>
      exact absurd (hserved hlast hfresh hh (hbusy hevents hflies)) hends
  | refreshed hevents hflies hends hcaller hreason =>
    cases htwo with
    | current hlast hcaller' hh hfresh hsent =>
      exact absurd (hserved hlast hfresh hh (hbusy hevents hflies)) hends
    | refreshed hevents' hflies' hends' hcaller' hreason' =>
      have hearlier := Flies.unique (hevents.symm.trans hevents') hflies hflies'
      subst hearlier
      have hduring := List.append_cancel_left (hevents.symm.trans hevents')
      subst hduring
      exact hreason.eq_ofReplies.trans hreason'.eq_ofReplies.symm

theorem settling_of_settled {event : Event} {more : List (Nat × Except Failure Snapshot)}
    (h : (t.step event).settled = t.settled ++ more) : t.settling event = more := by
  rw [settling, h, List.drop_left]

theorem Orderly.settling_cases (ho : Orderly t) {event : Event} {caller : Nat}
    {snapshot : Snapshot} (hm : (caller, .ok snapshot) ∈ t.settling event) :
    t.served? event = some (caller, .ok snapshot) ∧ (t.step event).wire = t.wire ∨
      event = .close ∧ ∃ callers, t.closing = some (callers, .ok snapshot) ∧ caller ∈ callers := by
  -- Only two events settle calls: one that finds a current archive, and the end of a refresh.
  have hnone : ∀ {event}, (t.step event).settled = t.settled →
      (caller, .ok snapshot) ∉ t.settling event := by
    intro event he
    rw [settling_of_settled (he.trans (List.append_nil t.settled).symm)]
    exact List.not_mem_nil
  cases event with
  | force =>
    cases (ho.step .force).2 with
    | served hs => cases hs
    | asked hs ha hbusy hjoin hstart hcount hsettled => exact absurd hm (hnone hsettled)
    | passed hs ha => cases ha
    | ended outcome hs ha => cases ha
  | ensure now =>
    cases hcurrent : t.supply.holding.current? now with
    | none =>
      have hasked : t.asked? (.ensure now) = some t.count := by rw [asked?, hcurrent]; rfl
      cases (ho.step (.ensure now)).2 with
      | served hs ha => cases ha.symm.trans hasked
      | asked hs ha hbusy hjoin hstart hcount hsettled => exact absurd hm (hnone hsettled)
      | passed hs ha => cases ha.symm.trans hasked
      | ended outcome hs ha => cases ha.symm.trans hasked
    | some found =>
      have hstep := step_ensure_of_current hcurrent
      rw [settling_of_settled (by rw [hstep])] at hm
      have hserved : t.served? (.ensure now) = some (t.count, .ok found) := by
        rw [served?, hcurrent]
        rfl
      exact .inl ⟨by rw [hserved, List.mem_singleton.mp hm], by rw [hstep]⟩
  | probe now answer =>
    refine absurd hm (hnone ?_)
    rw [Traffic.step]
    split
    · exact settled_receive t .probe _
    · rfl
  | download now answer =>
    refine absurd hm (hnone ?_)
    rw [Traffic.step]
    split
    · exact settled_receive t .download _
    · rfl
  | close =>
    refine .inr ⟨rfl, ?_⟩
    cases hc : t.closing with
    | none => exact absurd hm (hnone (by rw [Traffic.step, Traffic.close, hc]))
    | some s =>
      obtain ⟨callers, outcome⟩ := s
      rw [settling_of_settled (by rw [Traffic.step, Traffic.close, hc])] at hm
      obtain ⟨other, hother, he⟩ := List.mem_map.mp hm
      obtain ⟨rfl, rfl⟩ := Prod.mk.inj he
      exact ⟨callers, rfl, hother⟩

theorem Stage.exists_reason (hs : Stage first replies requests t) {callers : List Nat}
    {snapshot : Snapshot} (hc : t.closing = some (callers, .ok snapshot)) :
    ∃ h source, t.supply.holding.held = some h ∧ h.snapshot = snapshot ∧
      Reason first replies requests h source := by
  cases hs with
  | probing hn => cases hn.symm.trans hc
  | downloading hn => cases hn.symm.trans hc
  | failed hn => cases hn.symm.trans hc
  | fulfilled hn hp hh hr =>
    have hsame := (Prod.mk.inj (Option.some.inj (hn.symm.trans hc))).2
    exact ⟨_, _, hh, Except.ok.inj hsame, hr⟩

/-- Whoever is given an archive is given the one that is held, and for a reason. -/
theorem exists_grounds (holding : Holding) {events : List Event} {last : Event} {caller : Nat}
    {snapshot : Snapshot}
    (hm : (caller, .ok snapshot) ∈ ((opened holding).run events).settling last) :
    ∃ h source, (((opened holding).run events).step last).supply.holding.held = some h ∧
      h.snapshot = snapshot ∧ Grounds (opened holding) events last caller h source := by
  have ho := (Orderly.opened holding).run events
  -- An archive is given by the call itself or by the end of a refresh.
  rcases ho.settling_cases hm with ⟨hserved, hwire⟩ | ⟨rfl, callers, hclosing, hcaller⟩
  · cases last with
    | ensure now =>
      obtain ⟨found, hcurrent, he⟩ := Option.map_eq_some_iff.mp hserved
      obtain ⟨hnumber, hfound⟩ := Prod.mk.inj he
      obtain ⟨h, hheld, hsnapshot, hfresh⟩ := Holding.exists_held_of_current? hcurrent
      have hstill : (((opened holding).run events).step (.ensure now)).supply.holding.held =
          some h := by
        rw [step_ensure_of_current hcurrent]
        exact hheld
      exact ⟨h, .current, hstill, hsnapshot.trans (Except.ok.inj hfound),
        .current rfl hnumber.symm hheld hfresh (sent?_of_wire_eq hwire)⟩
    | force => cases hserved
    | probe now answer => cases hserved
    | download now answer => cases hserved
    | close => cases hserved
  · have hsome : ((opened holding).run events).closing.isSome := by rw [hclosing]; rfl
    -- The refresh that ends has run since the events that began it, and its replies say why.
    obtain ⟨earlier, during, rfl, hf⟩ := exists_flies (not_isBusy_opened holding) (.inl hsome)
    have hbefore := (Orderly.opened holding).run earlier
    have hstage := Stage.run hbefore hf
    have hwaiting := (hbefore.during hf.1 hf.2.2).1
    rw [← run_append] at hstage hwaiting
    obtain ⟨h, source, hheld, hsnapshot, hreason⟩ := hstage.exists_reason hclosing
    have hstill : (((opened holding).run (earlier ++ during)).step .close).supply.holding.held =
        some h := by
      rw [Traffic.step, Traffic.close, hclosing]
      exact hheld
    have hasked : caller ∈ ((opened holding).run earlier).asking during := by
      rw [← hwaiting, waiting, hclosing]
      exact hcaller
    exact ⟨h, source, hstill, hsnapshot,
      .refreshed rfl hf (not_isBusy_close (ho.closing hsome)) hasked hreason⟩

theorem Orderly.sent?_probe_iff (ho : Orderly t) (hm : Errand.probe ∈ t.wire) (now : Number)
    (answer : Except Failure (Option String)) :
    t.sent? (.probe now answer) = some .download ↔
      (t.supply.probed now answer).2.1 = .downloads := by
  have hwire : t.wire = [.probe] := ho.wire.trans (ho.outstanding_of_mem hm)
  have hnext : t.step (.probe now answer) = t.receive .probe (t.supply.probed now answer) :=
    if_pos hm
  rw [sent?, hnext]
  generalize t.supply.probed now answer = told
  obtain ⟨next, progress, notices⟩ := told
  cases progress with
  | ignored => simp [Traffic.receive, hwire]
  | downloads => simp [Traffic.receive, hwire]
  | ended callers outcome => simp [Traffic.receive, hwire]

theorem Orderly.exists_probe_of_sent? (ho : Orderly t) {event : Event}
    (hs : t.sent? event = some .download) :
    ∃ now answer, event = .probe now answer ∧ Errand.probe ∈ t.wire := by
  have hnew : Errand.download ∈ (t.step event).wire := List.mem_of_find?_eq_some hs
  have hold : Errand.download ∉ t.wire := by simpa using List.find?_some hs
  -- A call sends a probe or nothing, so only a reply can put a download on its way.
  have hasked : ∀ {event}, Errand.download ∈ (t.step event).wire → t.asked? event = some t.count →
      False := by
    intro event hnew ha
    obtain ⟨-, hjoin, hstart, -⟩ := ho.step_of_asked ha
    by_cases hb : t.IsBusy
    · exact hold (hjoin hb ▸ hnew)
    · rw [hstart hb] at hnew
      simp at hnew
  cases event with
  | force => exact (hasked hnew rfl).elim
  | ensure now =>
    cases hcurrent : t.supply.holding.current? now with
    | none => exact (hasked hnew (by rw [asked?, hcurrent]; rfl)).elim
    | some snapshot =>
      rw [step_ensure_of_current hcurrent] at hnew
      exact absurd hnew hold
  | probe now answer =>
    by_cases hm : Errand.probe ∈ t.wire
    · exact ⟨now, answer, rfl, hm⟩
    · have hstay : t.step (.probe now answer) = t := if_neg hm
      exact absurd (hstay ▸ hnew) hold
  | download now answer =>
    have hstay : t.step (.download now answer) = t := if_neg hold
    exact absurd (hstay ▸ hnew) hold
  | close =>
    rw [Traffic.step, Traffic.close] at hnew
    split at hnew <;> exact absurd hnew hold

/-- A probe is on its way for those who were given nothing else since the refresh began. -/
theorem before_eq_snapshot? (holding : Holding) {events : List Event}
    (hm : Errand.probe ∈ ((opened holding).run events).wire) :
    ∃ callers, ((opened holding).run events).supply.phase =
      .probing ((opened holding).run events).supply.holding.snapshot? callers := by
  have ho := (Orderly.opened holding).run events
  have hphase : ((opened holding).run events).supply.phase ≠ .idle := by
    intro hidle
    have hout := ho.outstanding_of_mem hm
    rw [Supply.outstanding_of_idle hidle] at hout
    cases hout
  -- Nothing is taken up before the probe is answered, so the same archive is held still.
  obtain ⟨earlier, during, rfl, hf⟩ := exists_flies (not_isBusy_opened holding) (.inr hphase)
  have hstage := Stage.run ((Orderly.opened holding).run earlier) hf
  rw [← run_append] at hstage
  obtain ⟨-, -, hh, callers, hp⟩ := hstage.of_probe_mem ho hm
  exact ⟨callers, by rw [hp, hh]⟩

theorem outdated_iff {holding : Holding} {reported : Option String} :
    (reported = none ∨ ∀ snapshot ∈ holding.snapshot?, reported ≠ snapshot.fingerprint) ↔
      holding.held = none ∨ reported = none ∨
        ∃ h version, holding.held = some h ∧ reported = some version ∧ version ≠ h.fingerprint := by
  cases hheld : holding.held with
  | none => simp [Holding.snapshot?, hheld]
  | some h =>
    cases reported with
    | none => simp
    | some version => simp [Holding.snapshot?, hheld, Held.snapshot]

/-- Calls are answered with what is held, for exactly one reason, and a download follows just those
probes that call for it. -/
theorem traceable_run (holding : Holding) (events : List Event) :
    Traceable (opened holding) events where
  fulfilled last caller snapshot hm := by
    obtain ⟨h, source, hheld, hsnapshot, hgrounds⟩ := exists_grounds holding hm
    exact ⟨h, hheld, hsnapshot, source, hgrounds, fun other hother => hother.unique hgrounds⟩
  downloads event := by
    have ho := (Orderly.opened holding).run events
    constructor
    · intro hs
      obtain ⟨now, answer, rfl, hm⟩ := ho.exists_probe_of_sent? hs
      obtain ⟨callers, hp⟩ := before_eq_snapshot? holding hm
      have hdownloads := (ho.sent?_probe_iff hm now answer).mp hs
      obtain ⟨reported, rfl, hv⟩ := (Supply.downloads_probed_iff hp now answer).mp hdownloads
      exact ⟨now, reported, rfl, hm, outdated_iff.mp hv⟩
    · rintro ⟨now, reported, rfl, hm, hv⟩
      obtain ⟨callers, hp⟩ := before_eq_snapshot? holding hm
      refine (ho.sent?_probe_iff hm now _).mpr ?_
      exact (Supply.downloads_probed_iff hp now _).mpr ⟨reported, rfl, outdated_iff.mpr hv⟩

end DomainRules.Traffic
