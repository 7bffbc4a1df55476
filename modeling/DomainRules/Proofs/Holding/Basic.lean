import DomainRules.Proofs.FileSlot
import DomainRules.Proofs.Supply.Basic

namespace DomainRules

theorem Stored.fingerprint_ne_empty {bytes : Bytes} {s : Stored}
    (h : Stored.unpack? bytes = some s) : s.fingerprint ≠ "" := by
  unfold unpack? at h
  obtain ⟨value, -, hvalue⟩ := Option.bind_eq_some_iff.mp h
  unfold ofPacked? at hvalue
  split at hvalue
  · split at hvalue
    · cases hvalue
    · rename_i hne
      obtain rfl := Option.some.inj hvalue
      exact hne
  · cases hvalue

namespace Holding

def CanStore (file : FileSlot) (s : Stored) : Prop :=
  file.IsOpen ∧ s.pack.length ≤ Stored.longest

/-- All that storing a snapshot can come to. -/
inductive StoreStep (file : FileSlot) (s : Stored) : FileSlot × Except Failure Unit → Prop where
  | stored {next : FileSlot} (hcan : CanStore file s) (hentry : next.entry = .file s.pack)
    (hclean : next.hasDraft = false) : StoreStep file s (next, .ok ())
  | spared {next : FileSlot} {failure : Failure} (hcannot : ¬ CanStore file s)
    (hentry : next.entry = file.entry) (hclean : next.hasDraft = false) :
    StoreStep file s (next, .error failure)

theorem store_step (file : FileSlot) (s : Stored) : StoreStep file s (store file s) := by
  unfold store
  split
  · rename_i hlength
    have hstep := file.replace_step s.pack
    generalize file.replace s.pack = told at hstep
    cases hstep with
    | blocked hsite =>
      refine .spared (fun hcan => hcan.1.1 hsite) ?_ ?_
      · rw [FileSlot.dropDraft, hsite]
      · rw [FileSlot.dropDraft, hsite, FileSlot.hasDraft, hsite]
    | overwriting draft hsite =>
      have hentry : file.entry = .directory := by rw [FileSlot.entry, hsite]
      exact .spared (fun hcan => hcan.1.2 hentry) hentry.symm rfl
    | replaced hopen => exact .stored ⟨hopen, hlength⟩ rfl rfl
  · -- The record is only made once the directory is there.
    rename_i hlong
    have hcannot : ¬ CanStore file s := fun hcan => hlong hcan.2
    cases hsite : file.site with
    | unmade =>
      have hentry : file.entry = .nothing := by rw [FileSlot.entry, hsite]
      rw [FileSlot.ensureDirectory, FileSlot.ensured, hsite]
      exact .spared hcannot hentry.symm rfl
    | blocked =>
      rw [FileSlot.ensureDirectory, FileSlot.ensured, hsite]
      exact .spared hcannot rfl (by rw [FileSlot.hasDraft, hsite])
    | made found draft =>
      have hentry : file.entry = found := by rw [FileSlot.entry, hsite]
      rw [FileSlot.ensureDirectory, FileSlot.ensured, hsite]
      exact .spared hcannot hentry.symm rfl

theorem store_ok {file next : FileSlot} {s : Stored} (h : store file s = (next, .ok ())) :
    s.pack.length ≤ Stored.longest ∧ next.read = .ok s.pack := by
  have hstep := store_step file s
  rw [h] at hstep
  cases hstep with
  | stored hcan hentry hclean => exact ⟨hcan.2, FileSlot.read_eq_ok_iff.mpr hentry⟩

inductive SetStep (holding : Holding) (now : Number) (data : Bytes) (fingerprint : String) :
    Holding × Except Failure Snapshot × List Notice → Prop where
  | refused {failure : Failure}
    (hno : fingerprint = "" ∧ failure = .emptyFingerprint ∨
      Archive.ofZip holding.directory data = .error failure) :
    SetStep holding now data fingerprint (holding, .error failure, [])
  | taken {archive : Archive} (hf : fingerprint ≠ "")
    (ha : Archive.ofZip holding.directory data = .ok archive) (hp : holding.isPersistent = false) :
    SetStep holding now data fingerprint
      ({ holding with held := some { data, archive, fingerprint, since := now } },
        .ok ⟨archive, some fingerprint⟩, [sizeNotice data])
  | stored {archive : Archive} {file : FileSlot} (hf : fingerprint ≠ "")
    (ha : Archive.ofZip holding.directory data = .ok archive)
    (hs : store holding.file { data, fingerprint, since := now } = (file, .ok ())) :
    SetStep holding now data fingerprint
      ({ holding with held := some { data, archive, fingerprint, since := now }, file },
        .ok ⟨archive, some fingerprint⟩, [sizeNotice data])
  | unstored {archive : Archive} {file : FileSlot} {failure : Failure} (hf : fingerprint ≠ "")
    (ha : Archive.ofZip holding.directory data = .ok archive)
    (hs : store holding.file { data, fingerprint, since := now } = (file, .error failure)) :
    SetStep holding now data fingerprint
      ({ holding with held := some { data, archive, fingerprint, since := now }, file },
        .ok ⟨archive, some fingerprint⟩,
        [sizeNotice data, .tick .persistErrors, .log .error "Failed to persist archive snapshot"])

theorem set_step (holding : Holding) (now : Number) (data : Bytes) (fingerprint : String) :
    SetStep holding now data fingerprint (holding.set now data fingerprint) := by
  unfold set
  split
  · exact .refused (.inl ⟨‹_›, rfl⟩)
  · rename_i hf
    split
    · exact .refused (.inr ‹_›)
    · rename_i archive ha
      dsimp only
      split
      · rename_i hp
        exact .taken hf ha (by simpa using hp)
      · split
        · exact .stored hf ha ‹_›
        · exact .unstored hf ha ‹_›

theorem set_of_ofZip {holding : Holding} {data : Bytes} {fingerprint : String} {archive : Archive}
    (now : Number) (hf : fingerprint ≠ "") (ha : Archive.ofZip holding.directory data = .ok archive)
    (hp : holding.isPersistent = false) :
    holding.set now data fingerprint =
      ({ holding with held := some { data, archive, fingerprint, since := now } },
        .ok ⟨archive, some fingerprint⟩, [sizeNotice data]) := by
  simp [set, hf, ha, hp, Held.snapshot]

theorem SetStep.isPersistent_eq {holding : Holding} {now : Number} {data : Bytes}
    {fingerprint : String} {told : Holding × Except Failure Snapshot × List Notice}
    (h : SetStep holding now data fingerprint told) :
    told.1.isPersistent = holding.isPersistent := by
  cases h <;> rfl

theorem SetStep.lifetime_eq {holding : Holding} {now : Number} {data : Bytes} {fingerprint : String}
    {told : Holding × Except Failure Snapshot × List Notice}
    (h : SetStep holding now data fingerprint told) : told.1.lifetime = holding.lifetime := by
  cases h <;> rfl

theorem SetStep.directory_eq {holding : Holding} {now : Number} {data : Bytes} {fingerprint : String}
    {told : Holding × Except Failure Snapshot × List Notice}
    (h : SetStep holding now data fingerprint told) : told.1.directory = holding.directory := by
  cases h <;> rfl

inductive LoadStep (holding : Holding) : Holding × Except Failure Bool × List Notice → Prop where
  | failed {failure : Failure} :
    LoadStep holding ({ holding with isPersistent := true }, .error failure, [])
  | absent (h : holding.file.read = .error .absent) :
    LoadStep holding ({ holding with isPersistent := true }, .ok false, [])
  | loaded {bytes : Bytes} {s : Stored} {archive : Archive} (hr : holding.file.read = .ok bytes)
    (hs : Stored.unpack? bytes = some s)
    (ha : Archive.ofZip holding.directory s.data = .ok archive) :
    LoadStep holding
      ({ holding with
          isPersistent := true
          held := some { data := s.data, archive, fingerprint := s.fingerprint, since := s.since } },
        .ok true, [sizeNotice s.data, .log .info "Loaded archive snapshot"])

theorem LoadStep.lifetime_eq {holding : Holding} {told : Holding × Except Failure Bool × List Notice}
    (h : LoadStep holding told) : told.1.lifetime = holding.lifetime := by
  cases h <;> rfl

theorem LoadStep.directory_eq {holding : Holding} {told : Holding × Except Failure Bool × List Notice}
    (h : LoadStep holding told) : told.1.directory = holding.directory := by
  cases h <;> rfl

theorem read_of_stored_none {directory : String} {file : FileSlot}
    (h : stored directory file = .ok none) : file.read = .error .absent := by
  unfold stored at h
  split at h
  · assumption
  · cases h
  · split at h
    · cases h
    · split at h <;> cases h

theorem exists_of_stored_some {directory : String} {file : FileSlot} {held : Held}
    (h : stored directory file = .ok (some held)) :
    ∃ bytes s archive, file.read = .ok bytes ∧ Stored.unpack? bytes = some s ∧
      Archive.ofZip directory s.data = .ok archive ∧
      held = { data := s.data, archive, fingerprint := s.fingerprint, since := s.since } := by
  unfold stored at h
  split at h
  · cases h
  · cases h
  · rename_i bytes hr
    split at h
    · cases h
    · rename_i s hs
      split at h
      · cases h
      · rename_i archive ha
        exact ⟨bytes, s, archive, hr, hs, ha, (Option.some.inj (Except.ok.inj h)).symm⟩

theorem load_step (holding : Holding) : LoadStep holding holding.load := by
  unfold load
  dsimp only
  split
  · exact .failed
  · rename_i hnone
    exact .absent (read_of_stored_none hnone)
  · rename_i held hsome
    obtain ⟨bytes, s, archive, hr, hs, ha, rfl⟩ := exists_of_stored_some hsome
    exact .loaded hr hs ha

end Holding

end DomainRules
