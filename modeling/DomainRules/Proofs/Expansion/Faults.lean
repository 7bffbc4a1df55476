import DomainRules.Proofs.Archive.Members
import DomainRules.Proofs.Expansion.Inclusion

namespace DomainRules

/-- A failure that is neither that of a missing list nor that of the publisher of the archive. -/
def Failure.IsInternal (failure : Failure) : Prop :=
  failure.kind? ≠ some .notFound ∧ failure.kind? ≠ some .transport

/-- A member that is there fails at most for its own content. -/
def Archive.FailsInternally (archive : Archive) : Prop :=
  ∀ name failure, archive.content? name = some (.failed failure) → failure.IsInternal

theorem Failure.isInternal_includedListNotFound (name : String) (origin : Option String) :
    (Failure.includedListNotFound name origin).IsInternal := by
  constructor
  · intro h
    cases h
  · intro h
    cases h

theorem Failure.IsInternal.whenIncluded {failure : Failure} (h : failure.IsInternal)
    (path : List String) (name : String) : (failure.whenIncluded path name).IsInternal := by
  cases failure with
  | listNotFound member => exact isInternal_includedListNotFound name path.getLast?
  | _ => exact h

namespace Archive

variable {archive : Archive} {name : String}

theorem content?_of_read_error {failure : Failure} (hmem : name ∈ archive.names)
    (h : archive.read name = .error failure) : archive.content? name = some (.failed failure) := by
  obtain ⟨content, hcontent⟩ := (mem_names_iff archive name).mp hmem
  rw [read, hcontent] at h
  cases content with
  | text text => cases h
  | failed own => rw [hcontent, Except.error.inj h]

/-- Archives that are read from bytes report a damaged list as such. -/
theorem failure_eq_of_ofZip {directory : String} {bytes : Bytes}
    (h : ofZip directory bytes = .ok archive) {failure : Failure}
    (hfailed : archive.content? name = some (.failed failure)) :
    failure = .unreadableList name := by
  obtain ⟨entries, -, hcontent⟩ := content?_ofZip h
  rw [hcontent] at hfailed
  obtain ⟨entry, -, hdata⟩ := Option.map_eq_some_iff.mp hfailed
  rw [Zip.content] at hdata
  split at hdata
  · cases hdata
  · exact (Content.failed.inj hdata).symm

theorem failsInternally_of_ofZip {directory : String} {bytes : Bytes}
    (h : ofZip directory bytes = .ok archive) : archive.FailsInternally := by
  intro name failure hfailed
  rw [failure_eq_of_ofZip h hfailed]
  constructor
  · intro hkind
    cases hkind
  · intro hkind
    cases hkind

end Archive

variable {archive : Archive} {filter : String}

end DomainRules
