import DomainRules.Zip
import Mathlib.Data.List.Induction

namespace DomainRules

theorem lookup_cons_ite {α : Type} (name other : String) (a : α) (pairs : List (String × α)) :
    ((name, a) :: pairs).lookup other = if other = name then some a else pairs.lookup other := by
  rw [List.lookup_cons]
  by_cases h : other = name
  · rw [if_pos h, beq_iff_eq.mpr h]
  · rw [if_neg h, beq_eq_false_iff_ne.mpr h]

namespace Archive

theorem lookup_insertMember (name other : String) (content : Content)
    (members : List (String × Content)) :
    (insertMember name content members).lookup other =
      if other = name then some content else members.lookup other := by
  induction members with
  | nil => exact lookup_cons_ite name other content []
  | cons member members ih =>
    obtain ⟨held, old⟩ := member
    rw [insertMember, lookup_cons_ite held]
    split
    · rename_i hsame
      rw [lookup_cons_ite, ← hsame]
      by_cases h : other = name <;> simp [h]
    · rename_i hother
      split
      · rw [lookup_cons_ite, lookup_cons_ite]
      · -- The member stands further on, so only another name can stop the search here.
        rw [lookup_cons_ite, ih]
        by_cases h : other = held
        · have hne : other ≠ name := fun he => hother (he.symm.trans h)
          rw [if_pos h, if_neg hne, if_pos h]
        · rw [if_neg h, if_neg h]

theorem content?_ofEntries (entries : List (String × Content)) (name : String) :
    (ofEntries entries).content? name = entries.reverse.lookup name := by
  induction entries using List.reverseRecOn with
  | nil => rfl
  | append_singleton entries entry ih =>
    obtain ⟨other, content⟩ := entry
    have hlast : (ofEntries (entries ++ [(other, content)])).members =
        insertMember other content (ofEntries entries).members := by
      rw [ofEntries, List.foldl_append]
      rfl
    rw [content?, hlast, lookup_insertMember, List.reverse_concat, lookup_cons_ite, ← ih]
    rfl

theorem mem_names_iff (archive : Archive) (name : String) :
    name ∈ archive.names ↔ ∃ content, archive.content? name = some content := by
  unfold names content?
  induction archive.members with
  | nil => simp
  | cons member members ih =>
    obtain ⟨held, content⟩ := member
    rw [List.map_cons, List.mem_cons, lookup_cons_ite]
    by_cases h : name = held
    · simp [h]
    · rw [if_neg h, ← ih]
      exact or_iff_right h

theorem read_of_notMem {archive : Archive} {name : String} (h : name ∉ archive.names) :
    archive.read name = .error (.listNotFound name) := by
  have hnone : archive.content? name = none := by
    rw [Option.eq_none_iff_forall_ne_some]
    intro content hcontent
    exact h ((mem_names_iff archive name).mpr ⟨content, hcontent⟩)
  rw [read, hnone]

end Archive

namespace Zip

/-- The entry that a name leads to: the last one that holds a list of that name. -/
def entryOf? (directory : String) (entries : List Entry) (name : String) : Option Entry :=
  entries.reverse.find? fun entry => entry.listName? directory = some name

theorem lookup_filterMap_listName? (directory : String) (bytes : Bytes) (entries : List Entry)
    (name : String) :
    (entries.filterMap fun entry =>
      (entry.listName? directory).map fun name => (name, content bytes name entry)).lookup name =
        (entries.find? fun entry => entry.listName? directory = some name).map
          (content bytes name) := by
  induction entries with
  | nil => rfl
  | cons entry entries ih =>
    cases hname : entry.listName? directory with
    | none => simp [hname, ih]
    | some other =>
      have hfront : (entry :: entries).filterMap (fun entry =>
          (entry.listName? directory).map fun name => (name, content bytes name entry)) =
            (other, content bytes other entry) :: entries.filterMap fun entry =>
              (entry.listName? directory).map fun name => (name, content bytes name entry) := by
        simp [hname]
      rw [hfront, lookup_cons_ite, ih]
      by_cases h : name = other
      · simp [hname, h]
      · have hother : ¬ other = name := fun he => h he.symm
        simp [hname, h, hother]

end Zip

theorem Archive.content?_ofZip {directory : String} {bytes : Bytes} {archive : Archive}
    (h : ofZip directory bytes = .ok archive) :
    ∃ entries, Zip.entries? bytes = some entries ∧ ∀ name, archive.content? name =
      (Zip.entryOf? directory entries name).map (Zip.content bytes name) := by
  unfold ofZip at h
  split at h
  · cases h
  · rename_i entries hentries
    refine ⟨entries, hentries, fun name => ?_⟩
    rw [← Except.ok.inj h, content?_ofEntries, ← List.filterMap_reverse, Zip.entryOf?,
      Zip.lookup_filterMap_listName?]

end DomainRules
