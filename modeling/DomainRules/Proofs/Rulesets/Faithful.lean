import DomainRules.Proofs.Expansion.Basic
import DomainRules.Proofs.Memo.Waiters
import DomainRules.Proofs.Rulesets.Desk
import DomainRules.Proofs.Rulesets.Key

namespace DomainRules

theorem RulesetCall.text_eq_of_key {a b : RulesetCall} (ha : '@' ∉ a.request.selection.name.toList)
    (hb : '@' ∉ b.request.selection.name.toList) (hkey : a.request.key = b.request.key)
    (hlists : a.archive.SameLists b.archive) : a.text = b.text := by
  have hrequest : a.request = b.request := Request.eq_of_key_eq ha hb hkey
  rw [text, text, items, items, hrequest, expandMember_congr hlists]

theorem RulesetCall.text_of_sole_rule {call : RulesetCall} {line : String} {rule : Rule}
    (hread : call.archive.read call.request.selection.name = .ok line)
    (hlines : Line.ofText line = [.rule rule])
    (hselected : rule.isSelectedBy call.request.selection.filter = true) :
    call.text = .ok (render call.request.dialect [.rule rule]) := by
  rw [text, items, result_expandMember_of_read hread, hlines,
    expand_rule_of_selected _ _ _ hselected, expand_nil]
  rfl

namespace Rulesets

variable {may other : RulesetCall → String → Prop} {rulesets : Rulesets}

theorem fst_beginAll_cons (rulesets : Rulesets) (now : Number) (fingerprint : Option String)
    (call : RulesetCall) (calls : List RulesetCall) :
    (rulesets.beginAll now fingerprint (call :: calls)).1 =
      ((rulesets.begin now fingerprint call).1.beginAll now fingerprint calls).1 := rfl

theorem snd_beginAll_cons (rulesets : Rulesets) (now : Number) (fingerprint : Option String)
    (call : RulesetCall) (calls : List RulesetCall) :
    (rulesets.beginAll now fingerprint (call :: calls)).2 =
      (rulesets.begin now fingerprint call).2 ::
        ((rulesets.begin now fingerprint call).1.beginAll now fingerprint calls).2 := rfl

theorem length_beginAll (rulesets : Rulesets) (now : Number) (fingerprint : Option String)
    (calls : List RulesetCall) :
    (rulesets.beginAll now fingerprint calls).2.length = calls.length := by
  induction calls generalizing rulesets with
  | nil => rfl
  | cons call calls ih => rw [snd_beginAll_cons, List.length_cons, List.length_cons, ih]

theorem mem_waiters_beginAll {waiter : RulesetCall} (h : waiter ∈ rulesets.waiters) (now : Number)
    (fingerprint : Option String) (calls : List RulesetCall) :
    waiter ∈ (rulesets.beginAll now fingerprint calls).1.waiters := by
  induction calls generalizing rulesets with
  | nil => exact h
  | cons call calls ih =>
    rw [fst_beginAll_cons]
    exact ih (Memo.mem_waiters_call h now call call.request.key fingerprint)

theorem finds_or_waits_of_mem_zip {now : Number} {fingerprint : Option String}
    {calls : List RulesetCall} {call : RulesetCall} {told : Memo.Answer}
    (h : (call, told) ∈ calls.zip (rulesets.beginAll now fingerprint calls).2) :
    (∃ text, told = .kept text) ∨
      (∀ text, told ≠ .kept text) ∧ call ∈ (rulesets.beginAll now fingerprint calls).1.waiters := by
  induction calls generalizing rulesets with
  | nil => cases h
  | cons first calls ih =>
    rw [snd_beginAll_cons, List.zip_cons_cons] at h
    rcases List.mem_cons.mp h with hnow | hlater
    · obtain ⟨rfl, rfl⟩ := Prod.mk.inj hnow
      rcases Memo.call_finds_or_waits rulesets now call call.request.key fingerprint with
        ⟨text, -, htold, -⟩ | ⟨-, hother, hwaits⟩
      · exact .inl ⟨text, htold⟩
      · refine .inr ⟨hother, mem_waiters_beginAll ?_ now fingerprint calls⟩
        exact hwaits.mem_iff.mpr (List.mem_append_right _ List.mem_cons_self)
    · exact ih hlater

/-- Who may call with which version, such that nobody is mixed up with a call for something else. -/
structure Fair (may : RulesetCall → String → Prop) : Prop where
  text_eq : ∀ {a b : RulesetCall} {version : String}, may a version → may b version →
    a.request.key = b.request.key → a.text = b.text
  version_eq : ∀ {a b : RulesetCall} {version later : String}, may a version → may b later →
    Memo.identity a.request.key (some version) = Memo.identity b.request.key (some later) →
    version = later

theorem Fair.of_imp (hfair : Fair may) (h : ∀ call version, other call version → may call version) :
    Fair other where
  text_eq ha hb hkey := hfair.text_eq (h _ _ ha) (h _ _ hb) hkey
  version_eq ha hb hname := hfair.version_eq (h _ _ ha) (h _ _ hb) hname

/-- Every kept text is the text of a call under its key for its version, and all who wait for a
computation asked for the same. -/
structure Faithful (may : RulesetCall → String → Prop) (rulesets : Rulesets) : Prop where
  kept : ∀ k ∈ rulesets.store.kept, ∃ call version, may call version ∧
    call.request.key = k.key ∧ k.fingerprint = some version ∧ call.text = .ok k.text
  running : ∀ c ∈ rulesets.running, ∃ version, c.fingerprint = some version ∧
    ∀ call ∈ c.callers, may call version ∧ call.request.key = c.key

namespace Faithful

theorem of_imp (h : Faithful other rulesets)
    (himp : ∀ call version, other call version → may call version) : Faithful may rulesets where
  kept k hk := by
    obtain ⟨call, version, hcall, hkept⟩ := h.kept k hk
    exact ⟨call, version, himp call version hcall, hkept⟩
  running c hc := by
    obtain ⟨version, hv, hcallers⟩ := h.running c hc
    refine ⟨version, hv, fun call hcall => ?_⟩
    exact ⟨himp call version (hcallers call hcall).1, (hcallers call hcall).2⟩

theorem text_of_kept (h : Faithful may rulesets) (hfair : Fair may) {call : RulesetCall}
    {version text : String} {now : Number} (hmay : may call version)
    (hget : (rulesets.store.get now call.request.key (some version)).2 = some text) :
    call.text = .ok text := by
  obtain ⟨k, hk, hkey, hversion, htext, -⟩ := Memo.Store.exists_of_get_eq_some hget
  obtain ⟨earlier, made, hearlier, hsame, hmade, htold⟩ := h.kept k hk
  have hv : made = version := Option.some.inj (hmade.symm.trans hversion)
  rw [hv] at hearlier
  have hkeys : call.request.key = earlier.request.key := hkey.symm.trans hsame.symm
  rw [hfair.text_eq hmay hearlier hkeys, htold, htext]

theorem of_identity (h : Faithful may rulesets) (hfair : Fair may) {call : RulesetCall}
    {version : String} (hmay : may call version) {c : Memo.Computation RulesetCall}
    (hc : c ∈ rulesets.running)
    (hname : c.identity = Memo.identity call.request.key (some version)) :
    c.key = call.request.key ∧ c.fingerprint = some version := by
  obtain ⟨made, hmade, hcallers⟩ := h.running c hc
  obtain ⟨howner, hkey⟩ := hcallers c.owner List.mem_cons_self
  rw [Memo.Computation.identity, hmade, ← hkey] at hname
  have hversion : made = version := hfair.version_eq howner hmay hname
  -- The version stands in front of the key, so what is left of two equal names are the keys.
  rw [hversion] at hname
  have hlist := congrArg String.toList hname
  simp only [Memo.identity, String.toList_append, List.append_right_inj] at hlist
  exact ⟨hkey.symm.trans (String.toList_injective hlist), by rw [hmade, hversion]⟩

/-- All who wait for a computation get the text that they would compute alone. -/
theorem text_of_caller (h : Faithful may rulesets) (hfair : Fair may)
    {c : Memo.Computation RulesetCall} (hc : c ∈ rulesets.running) {call : RulesetCall}
    (hcall : call ∈ c.callers) : c.owner.text = call.text := by
  obtain ⟨version, -, hcallers⟩ := h.running c hc
  obtain ⟨howner, hown⟩ := hcallers c.owner List.mem_cons_self
  obtain ⟨hmay, hkey⟩ := hcallers call hcall
  exact hfair.text_eq howner hmay (hown.trans hkey.symm)

theorem outcomeOf_of_waits (h : Faithful may rulesets) (hfair : Fair may) {call : RulesetCall}
    {told : Memo.Answer} (hother : ∀ text, told ≠ .kept text) (hwaits : call ∈ rulesets.waiters) :
    outcomeOf (endOrder rulesets.running) call told = call.text := by
  have hfound : ((endOrder rulesets.running).find? (·.callers.contains call)).isSome := by
    obtain ⟨c, hc, hcall⟩ := List.mem_flatMap.mp hwaits
    rw [List.find?_isSome]
    exact ⟨c, List.mem_mergeSort.mpr hc, List.contains_iff_mem.mpr hcall⟩
  obtain ⟨c, hfind⟩ := Option.isSome_iff_exists.mp hfound
  have hc : c ∈ rulesets.running := List.mem_mergeSort.mp (List.mem_of_find?_eq_some hfind)
  have hcontains := List.find?_some hfind
  have hcall : call ∈ c.callers := by simpa using hcontains
  rw [← h.text_of_caller hfair hc hcall, outcomeOf, hfind]
  exact hother

/-- Whether a call finds a text, joins a computation or starts one, all who wait for a computation
still asked for the same. -/
theorem begun (h : Faithful may rulesets) (hfair : Fair may) {call : RulesetCall}
    {version : String} (hmay : may call version) (now : Number) :
    Faithful may (rulesets.begin now (some version) call).1 := by
  constructor
  · intro k hk
    have hstore := Memo.store_call rulesets now call call.request.key (some version)
    rw [Rulesets.begin, hstore] at hk
    exact h.kept k (Memo.Store.mem_kept_of_mem_get hk)
  · intro c hc
    rw [Rulesets.begin] at hc
    rcases Memo.call_cases rulesets now call call.request.key (some version) with
      ⟨text, -, -, hrunning⟩ | ⟨-, -, hrunning⟩ | ⟨-, -, hrunning⟩
    · rw [hrunning] at hc
      exact h.running c hc
    · rw [hrunning] at hc
      rcases Memo.mem_join hc with hc | ⟨d, hd, hname, rfl⟩
      · exact h.running c hc
      · obtain ⟨hkey, hversion⟩ := h.of_identity hfair hmay hd hname
        obtain ⟨made, hmade, hcallers⟩ := h.running d hd
        refine ⟨made, hmade, fun caller hcaller => ?_⟩
        have hsame : made = version := Option.some.inj (hmade.symm.trans hversion)
        -- The callers are those of before and the one who joins.
        rcases List.mem_append.mp (show caller ∈ d.callers ++ [call] from hcaller) with hold | hnew
        · exact hcallers caller hold
        · rw [List.mem_singleton.mp hnew, hsame]
          exact ⟨hmay, hkey.symm⟩
    · rw [hrunning] at hc
      rcases List.mem_append.mp hc with hc | hc
      · exact h.running c hc
      · rw [List.mem_singleton.mp hc]
        refine ⟨version, rfl, fun caller hcaller => ?_⟩
        rw [List.mem_singleton.mp (show caller ∈ [call] from hcaller)]
        exact ⟨hmay, rfl⟩

theorem keep (h : Faithful may rulesets) {c : Memo.Computation RulesetCall}
    (hc : c ∈ rulesets.running) (now : Number) : Faithful may (rulesets.keep now c) := by
  obtain ⟨version, hv, hcallers⟩ := h.running c hc
  obtain ⟨howner, hkey⟩ := hcallers c.owner List.mem_cons_self
  unfold Rulesets.keep
  split
  · rename_i text htext
    refine ⟨fun k hk => ?_, h.running⟩
    rcases Memo.Store.mem_kept_of_mem_set hk with hk | rfl
    · exact h.kept k hk
    · exact ⟨c.owner, version, howner, hkey, hv, htext⟩
  · exact h

theorem close (h : Faithful may rulesets) (c : Memo.Computation RulesetCall) :
    Faithful may (rulesets.close c) :=
  ⟨h.kept, fun d hd => h.running d (List.mem_filter.mp hd).1⟩

theorem sweep (h : Faithful may rulesets) (now : Number) : Faithful may (rulesets.sweep now) :=
  ⟨fun k hk => h.kept k (Memo.Store.mem_kept_of_mem_sweep hk), h.running⟩

theorem beginAll (h : Faithful may rulesets) (hfair : Fair may) {calls : List RulesetCall}
    {version : String} (hmay : ∀ call ∈ calls, may call version) (now : Number) :
    Faithful may (rulesets.beginAll now (some version) calls).1 := by
  induction calls generalizing rulesets with
  | nil => exact h
  | cons call calls ih =>
    rw [fst_beginAll_cons]
    exact ih (h.begun hfair (hmay call List.mem_cons_self) now)
      fun later hlater => hmay later (List.mem_cons_of_mem call hlater)

theorem text_of_told (h : Faithful may rulesets) (hfair : Fair may) {calls : List RulesetCall}
    {version : String} (hmay : ∀ call ∈ calls, may call version) (now : Number)
    {call : RulesetCall} {text : String}
    (htold : (call, .kept text) ∈ calls.zip (rulesets.beginAll now (some version) calls).2) :
    call.text = .ok text := by
  induction calls generalizing rulesets with
  | nil => cases htold
  | cons first calls ih =>
    have hfirst := hmay first List.mem_cons_self
    rw [snd_beginAll_cons, List.zip_cons_cons] at htold
    rcases List.mem_cons.mp htold with hnow | hlater
    · obtain ⟨rfl, hanswer⟩ := Prod.mk.inj hnow
      exact h.text_of_kept hfair hfirst (Memo.get_of_answer_kept hanswer.symm)
    · exact ih (h.begun hfair hfirst now)
        (fun later hl => hmay later (List.mem_cons_of_mem first hl)) hlater

/-- All requests that arrive together are answered with the texts that they ask for, whatever is kept
and computed. -/
theorem results_answer (h : Faithful may rulesets) (hfair : Fair may) {archive : Archive}
    {version : String} {requests : List Request}
    (hmay : ∀ call ∈ callsOf archive requests, may call version) (now : Number) :
    (rulesets.answer now ⟨archive, some version⟩ requests).results =
      (callsOf archive requests).map RulesetCall.text := by
  have hbegun := h.beginAll hfair hmay now
  have hlength := length_beginAll rulesets now (some version) (callsOf archive requests)
  have hcalls := List.map_fst_zip (Nat.le_of_eq hlength.symm)
  conv_rhs => rw [← hcalls, List.map_map]
  apply List.map_congr_left
  rintro ⟨call, told⟩ hmem
  -- Each call was told a text at once, or it waits for a computation; none is left over.
  rcases finds_or_waits_of_mem_zip hmem with ⟨text, rfl⟩ | ⟨hother, hwaits⟩
  · exact (h.text_of_told hfair hmay now hmem).symm
  · exact hbegun.outcomeOf_of_waits hfair hother hwaits

/-- One request is answered with the text that it asks for, whatever is kept and computed. -/
theorem outcome_answerOne (h : Faithful may rulesets) (hfair : Fair may) {archive : Archive}
    {version : String} {request : Request}
    (hmay : may { number := 0, request, archive } version) (now : Number) :
    (rulesets.answerOne now ⟨archive, some version⟩ request).2.1 =
      RulesetCall.text { number := 0, request, archive } := by
  have hsole : ∀ call ∈ callsOf archive [request], may call version := by
    intro call hcall
    rw [List.mem_singleton.mp hcall]
    exact hmay
  rw [answerOne, h.results_answer hfair hsole now]
  rfl

end Faithful

end Rulesets

end DomainRules
