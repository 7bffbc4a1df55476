import DomainRules.Proofs.Holding.Restart

namespace DomainRules.Shelf

/-- What setting a snapshot comes to in a place that stores its archives. -/
structure Settled (before after : Shelf) (s : Stored) (archive : Archive) : Prop where
  answer : (before.holding.set s.since s.data s.fingerprint).2.1 =
    .ok ⟨archive, some s.fingerprint⟩
  held : after.holding.held =
    some { data := s.data, archive, fingerprint := s.fingerprint, since := s.since }
  hasDraft : after.holding.file.hasDraft = false
  /-- The record at the path is a whole one, so it can be read back. -/
  filed : after.unstored = before.unstored ∧ after.holding.file.read = .ok s.pack ∧
      (s.since.IsSafe → Stored.unpack? s.pack = some s) ∨
    after.unstored = before.unstored + 1 ∧ after.holding.file.entry = before.holding.file.entry
  failed_iff : after.unstored = before.unstored + 1 ↔ ¬ Holding.CanStore before.holding.file s
  /-- If the path did not hold that very record already, a failure shows in what is at the path. -/
  spared_iff : before.holding.file.entry ≠ .file s.pack →
    (after.holding.file.entry = before.holding.file.entry ↔ after.unstored = before.unstored + 1)

section

variable {w next : Shelf} {s : Stored} {archive : Archive}

theorem Settled.of_stored
    (hanswer : (w.holding.set s.since s.data s.fingerprint).2.1 = .ok ⟨archive, some s.fingerprint⟩)
    (hheld : next.holding.held =
      some { data := s.data, archive, fingerprint := s.fingerprint, since := s.since })
    (hf : s.fingerprint ≠ "") (hcan : Holding.CanStore w.holding.file s)
    (hentry : next.holding.file.entry = .file s.pack) (hclean : next.holding.file.hasDraft = false)
    (hcount : next.unstored = w.unstored) : Settled w next s archive where
  answer := hanswer
  held := hheld
  hasDraft := hclean
  filed := by
    have hread : next.holding.file.read = .ok s.pack := FileSlot.read_eq_ok_iff.mpr hentry
    exact .inl ⟨hcount, hread, Stored.unpack?_pack hcan.2 hf⟩
  failed_iff := by
    have hnever : next.unstored ≠ w.unstored + 1 := by omega
    exact ⟨fun h => absurd h hnever, fun h => absurd hcan h⟩
  spared_iff hother := by
    have hnever : next.unstored ≠ w.unstored + 1 := by omega
    have hchanged : next.holding.file.entry ≠ w.holding.file.entry := by
      intro hsame
      exact hother (hsame.symm.trans hentry)
    exact ⟨fun h => absurd h hchanged, fun h => absurd h hnever⟩

theorem Settled.of_spared
    (hanswer : (w.holding.set s.since s.data s.fingerprint).2.1 = .ok ⟨archive, some s.fingerprint⟩)
    (hheld : next.holding.held =
      some { data := s.data, archive, fingerprint := s.fingerprint, since := s.since })
    (hcannot : ¬ Holding.CanStore w.holding.file s)
    (hentry : next.holding.file.entry = w.holding.file.entry)
    (hclean : next.holding.file.hasDraft = false) (hcount : next.unstored = w.unstored + 1) :
    Settled w next s archive where
  answer := hanswer
  held := hheld
  hasDraft := hclean
  filed := .inr ⟨hcount, hentry⟩
  failed_iff := iff_of_true hcount hcannot
  spared_iff _ := iff_of_true hentry hcount

theorem settled_step (hp : w.holding.isPersistent = true) (hf : s.fingerprint ≠ "")
    (harchive : Archive.ofZip w.holding.directory s.data = .ok archive) :
    Settled w (w.step (.set s.since s.data s.fingerprint)) s archive := by
  have hstep := Holding.set_step w.holding s.since s.data s.fingerprint
  have hnext : w.step (.set s.since s.data s.fingerprint) =
      w.note (w.holding.set s.since s.data s.fingerprint) := rfl
  -- The answer is still needed below, so its equation is kept beside the cases.
  generalize hset : w.holding.set s.since s.data s.fingerprint = told at hstep hnext
  rw [hnext]
  cases hstep with
  | refused hno =>
    rcases hno with ⟨hempty, -⟩ | hfailed
    · exact absurd hempty hf
    · cases harchive.symm.trans hfailed
  | taken _ _ hno => cases hp.symm.trans hno
  | stored _ hsame hs =>
    obtain rfl := Except.ok.inj (harchive.symm.trans hsame)
    have hfile := Holding.store_step w.holding.file s
    rw [hs] at hfile
    cases hfile with
    | stored hcan hentry hclean =>
      apply Settled.of_stored (by rw [hset]) rfl hf hcan hentry hclean
      exact unstored_noteAll_size w.metrics s.data
  | unstored _ hsame hs =>
    obtain rfl := Except.ok.inj (harchive.symm.trans hsame)
    have hfile := Holding.store_step w.holding.file s
    rw [hs] at hfile
    cases hfile with
    | spared hcannot hentry hclean =>
      apply Settled.of_spared (by rw [hset]) rfl hcannot hentry hclean
      exact unstored_noteAll_failed w.metrics s.data

end

theorem isPersistent_step {w : Shelf} {event : Event}
    (h : w.holding.isPersistent = true ∨ event = .load) :
    (w.step event).holding.isPersistent = true := by
  cases event with
  | set now data fingerprint =>
    have hkept := (Holding.set_step w.holding now data fingerprint).isPersistent_eq
    exact hkept.trans (h.resolve_right (by simp))
  | touch now => exact h.resolve_right (by simp)
  | load =>
    have hstep := Holding.load_step w.holding
    rw [step]
    generalize w.holding.load = told at hstep
    cases hstep <;> rfl
  | disturb site => exact h.resolve_right (by simp)

theorem isPersistent_run {w : Shelf} {events : List Event}
    (h : w.holding.isPersistent = true ∨ .load ∈ events) :
    (w.run events).holding.isPersistent = true := by
  induction events generalizing w with
  | nil => exact h.resolve_right List.not_mem_nil
  | cons event events ih =>
    apply ih (w := w.step event)
    rcases h with hp | hload
    · exact .inl (isPersistent_step (.inl hp))
    · rcases List.mem_cons.mp hload with hhere | hlater
      · exact .inl (isPersistent_step (.inr hhere.symm))
      · exact .inr hlater

/-- Whatever was set, brought back and put in the way before, an archive with a version that is set
where archives are stored is held. Its record is then at the path, or the failure is counted and the
path is as it was. -/
theorem settled_run {lifetime now : Number} {directory : String} {file : FileSlot}
    {isPersistent : Bool} {events : List Event} {data : Bytes} {fingerprint : String}
    {archive : Archive} (hp : isPersistent = true ∨ .load ∈ events) (hf : fingerprint ≠ "")
    (harchive : Archive.ofZip directory data = .ok archive) :
    Settled ((opened lifetime directory file isPersistent).run events)
      ((opened lifetime directory file isPersistent).run (events ++ [.set now data fingerprint]))
      { data, fingerprint, since := now } archive := by
  rw [run_concat]
  have hpersistent : ((opened lifetime directory file isPersistent).run events).holding.isPersistent
      = true := isPersistent_run hp
  have hdirectory : ((opened lifetime directory file isPersistent).run events).holding.directory =
      directory := directory_run _ events
  exact settled_step (s := { data, fingerprint, since := now }) hpersistent hf
    (hdirectory.symm ▸ harchive)

def obstructed : List Event :=
  [.disturb (.made .directory (some [0x2E])),
    .set (.ofNat 1000) (Holding.googleArchive Holding.googleCheck) "v1"]

/-- The next one is held as well, and the directory stays. -/
theorem settled_run_obstructed :
    let first := opened (.ofNat 1000) Holding.vacant.directory Holding.vacant.file true
    let again := Event.set (.ofNat 2000) (Holding.googleArchive Holding.googleCheck) "v2"
    Settled (first.run obstructed) (first.run (obstructed ++ [again]))
        { data := Holding.googleArchive Holding.googleCheck
          fingerprint := "v2"
          since := .ofNat 2000 } ⟨[("google", .text "google.com\n")]⟩ ∧
      (first.run (obstructed ++ [again])).unstored = 2 ∧
      (first.run (obstructed ++ [again])).holding.file.site = .made .directory none := by
  intro first again
  refine ⟨settled_run (.inl rfl) (by decide) Holding.ofZip_google, ?_, ?_⟩ <;> decide +kernel

end DomainRules.Shelf
