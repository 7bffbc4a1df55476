import DomainRules.Proofs.Archive.Members
import DomainRules.Proofs.Text.UnitOrder

namespace DomainRules.Archive

open Text

def IsOrdered (members : List (String × Content)) : Prop :=
  members.Pairwise fun a b => unitOrder a.1 b.1 = true

variable {name : String} {content : Content} {members : List (String × Content)}

theorem name_of_mem_insertMember {member : String × Content}
    (h : member ∈ insertMember name content members) :
    member.1 = name ∨ member ∈ members := by
  induction members with
  | nil =>
    rw [insertMember, List.mem_singleton] at h
    exact .inl (congrArg Prod.fst h)
  | cons held members ih =>
    unfold insertMember at h
    split at h
    · rcases List.mem_cons.mp h with rfl | h
      · exact .inl rfl
      · exact .inr (List.mem_cons_of_mem _ h)
    · split at h
      · rcases List.mem_cons.mp h with rfl | h
        · exact .inl rfl
        · exact .inr h
      · rcases List.mem_cons.mp h with rfl | h
        · exact .inr List.mem_cons_self
        · exact (ih h).imp_right (List.mem_cons_of_mem _)

theorem IsOrdered.insertMember (h : IsOrdered members) (name : String) (content : Content) :
    IsOrdered (insertMember name content members) := by
  -- The new member stops at the first one that is not before it, so what it passes stays in front.
  induction members with
  | nil => exact List.pairwise_singleton _ _
  | cons held members ih =>
    obtain ⟨hbehind, hrest⟩ := List.pairwise_cons.mp h
    unfold Archive.insertMember
    split
    · rename_i hsame
      apply List.pairwise_cons.mpr
      refine ⟨?_, hrest⟩
      intro other hother
      rw [hsame]
      exact hbehind other hother
    · rename_i hne
      split
      · rename_i hbefore
        apply List.pairwise_cons.mpr
        refine ⟨?_, h⟩
        intro other hother
        rcases List.mem_cons.mp hother with rfl | hother
        · exact hbefore
        · exact unitOrder_trans hbefore (hbehind other hother)
      · rename_i hafter
        apply List.pairwise_cons.mpr
        refine ⟨?_, ih hrest⟩
        intro other hother
        rcases name_of_mem_insertMember hother with hnew | hother
        · rw [hnew]
          exact unitOrder_of_ne hne hafter
        · exact hbehind other hother

theorem isOrdered_ofEntries (entries : List (String × Content)) :
    IsOrdered (ofEntries entries).members := by
  induction entries using List.reverseRecOn with
  | nil => exact List.Pairwise.nil
  | append_singleton entries entry ih =>
    rw [ofEntries, List.foldl_append]
    exact ih.insertMember entry.1 entry.2

theorem pairwise_names_ofEntries (entries : List (String × Content)) :
    (ofEntries entries).names.Pairwise fun a b => unitOrder a b = true :=
  List.pairwise_map.mpr (isOrdered_ofEntries entries)

theorem nodup_names_ofEntries (entries : List (String × Content)) :
    (ofEntries entries).names.Nodup :=
  (pairwise_names_ofEntries entries).imp ne_of_unitOrder

theorem mem_names_ofEntries_iff (entries : List (String × Content)) (name : String) :
    name ∈ (ofEntries entries).names ↔ ∃ content, (name, content) ∈ entries := by
  -- The entries themselves, the last one first, lead to the same contents.
  have hsame : (ofEntries entries).content? name = (Archive.mk entries.reverse).content? name :=
    content?_ofEntries entries name
  rw [mem_names_iff, hsame, ← mem_names_iff]
  simp [names]

end DomainRules.Archive
