import DomainRules.FileSlot

namespace DomainRules.FileSlot

variable {slot : FileSlot} {data : Bytes}

def entry (slot : FileSlot) : Entry :=
  match slot.site with
  | .made entry _ => entry
  | _ => .nothing

theorem entry_ne_nothing {slot : FileSlot} (h : slot.isPresent = true) : slot.entry ≠ .nothing := by
  unfold isPresent at h
  unfold entry
  split at h
  · cases h
  · rename_i entry draft hother hsite
    rw [hsite]
    exact hother
  · cases h

theorem read_eq_ok_iff : slot.read = .ok data ↔ slot.entry = .file data := by
  unfold read entry
  cases slot.site with
  | unmade => exact ⟨nofun, nofun⟩
  | blocked => exact ⟨nofun, nofun⟩
  | made entry draft =>
    cases entry with
    | nothing => exact ⟨nofun, nofun⟩
    | file found => rw [Except.ok.injEq, Entry.file.injEq]
    | directory => exact ⟨nofun, nofun⟩

theorem data?_of_read (h : slot.read = .ok data) : slot.data? = some data := by
  unfold read at h
  split at h
  · cases h
  · cases h
  · cases h
  · rename_i hsite
    rw [data?, hsite, Except.ok.inj h]
  · cases h

/-- What others do at a path, whether they write the file, remove it or make a directory there. -/
theorem exists_site_of_others {next : FileSlot}
    (h : slot.write data = .ok next ∨ slot.remove = .ok next ∨ slot.makeDirectory = .ok next) :
    ∃ site, next = { slot with site } := by
  rcases h with hwrite | hremove | hmake
  · unfold write at hwrite
    split at hwrite
    · cases hwrite
    · cases hwrite
    · exact ⟨_, (Except.ok.inj hwrite).symm⟩
  · unfold remove at hremove
    split at hremove
    · exact ⟨slot.site, (Except.ok.inj hremove).symm⟩
    · cases hremove
    · exact ⟨_, (Except.ok.inj hremove).symm⟩
  · unfold makeDirectory at hmake
    split at hmake
    · exact ⟨_, (Except.ok.inj hmake).symm⟩
    · cases hmake
    · cases hmake
    · exact ⟨_, (Except.ok.inj hmake).symm⟩

def IsOpen (slot : FileSlot) : Prop := slot.site ≠ .blocked ∧ slot.entry ≠ .directory

/-- All that replacing a file can come to. -/
inductive ReplaceStep (slot : FileSlot) (data : Bytes) : FileSlot × Except Failure Unit → Prop where
  | blocked (hsite : slot.site = .blocked) :
    ReplaceStep slot data (slot, .error (.disk .exists))
  | overwriting (draft : Option Bytes) (hsite : slot.site = .made .directory draft) :
    ReplaceStep slot data
      ({ slot with site := .made .directory (some data) },
        .error (.overwritesDirectory slot.draftPath slot.path))
  | replaced (hopen : slot.IsOpen) :
    ReplaceStep slot data ({ slot with site := .made (.file data) none }, .ok ())

theorem replace_step (slot : FileSlot) (data : Bytes) :
    ReplaceStep slot data (slot.replace data) := by
  cases hsite : slot.site with
  | unmade =>
    rw [replace, ensured, hsite]
    exact .replaced (by simp [IsOpen, entry, hsite])
  | blocked =>
    rw [replace, ensured, hsite]
    exact .blocked hsite
  | made found draft =>
    rw [replace, ensured, hsite]
    cases found with
    | nothing => exact .replaced (by simp [IsOpen, entry, hsite])
    | file old => exact .replaced (by simp [IsOpen, entry, hsite])
    | directory => exact .overwriting draft hsite

/-- What can be expected of any disk. A file that was replaced holds the data, and one that could
not be replaced is as it was, or it was removed to make room for the draft. -/
structure Lawful (replace : Writer) : Prop where
  saves : ∀ slot data, (replace slot data).2 = .ok () → (replace slot data).1.entry = .file data
  spares : ∀ slot data failure, (replace slot data).2 = .error failure →
    (replace slot data).1.entry = slot.entry ∨ (replace slot data).1.entry = .nothing

theorem lawful_replace : Lawful replace where
  saves slot data h := by
    have hstep := replace_step slot data
    generalize slot.replace data = told at h hstep ⊢
    cases hstep with
    | blocked hsite => cases h
    | overwriting draft hsite => cases h
    | replaced hopen => rfl
  spares slot data failure h := by
    have hstep := replace_step slot data
    generalize slot.replace data = told at h hstep ⊢
    cases hstep with
    | blocked hsite => exact .inl rfl
    | overwriting draft hsite => exact .inl (by rw [entry, entry, hsite])
    | replaced hopen => cases h

end DomainRules.FileSlot
