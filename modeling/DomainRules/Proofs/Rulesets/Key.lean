import DomainRules.Memo
import DomainRules.Request

namespace DomainRules

theorem Text.append_cons_inj {c : Char} {s s' t t' : List Char} (hs : c ∉ s) (hs' : c ∉ s')
    (h : s ++ c :: t = s' ++ c :: t') : s = s' ∧ t = t' := by
  induction s generalizing s' with
  | nil =>
    cases s' with
    | nil => exact ⟨rfl, (List.cons.inj h).2⟩
    | cons d s' => exact absurd ((List.cons.inj h).1 ▸ List.mem_cons_self) hs'
  | cons d s ih =>
    cases s' with
    | nil => exact absurd ((List.cons.inj h).1.symm ▸ List.mem_cons_self) hs
    | cons e s' =>
      obtain ⟨hde, hrest⟩ := List.cons.inj h
      obtain ⟨he, ht⟩ := ih (fun hc => hs (List.mem_cons_of_mem d hc))
        (fun hc => hs' (List.mem_cons_of_mem e hc)) hrest
      exact ⟨by rw [hde, he], ht⟩

theorem Dialect.colon_notMem_label (dialect : Dialect) : ':' ∉ dialect.label.toList := by
  cases dialect <;> decide

theorem Dialect.label_injective {a b : Dialect} (h : a.label = b.label) : a = b := by
  revert h
  cases a <;> cases b <;> decide

namespace Selection

def mark (selection : Selection) : List Char :=
  if selection.filter = "" then [] else '@' :: selection.filter.toList

/-- All behind the first at sign is the filter, so the name holds none. -/
theorem at_notMem_name (segment : String) : '@' ∉ (ofSegment segment).name.toList := by
  intro hmem
  rw [ofSegment, String.toList_ofList] at hmem
  have h := List.all_eq_true.mp List.all_takeWhile '@' hmem
  simp at h

theorem eq_of_marked {a b : Selection} (ha : '@' ∉ a.name.toList) (hb : '@' ∉ b.name.toList)
    (h : a.name.toList ++ a.mark = b.name.toList ++ b.mark) : a = b := by
  obtain ⟨name, filter⟩ := a
  obtain ⟨name', filter'⟩ := b
  simp only [mark] at ha hb h
  split at h
  · rename_i hf
    split at h
    · rename_i hf'
      rw [List.append_nil, List.append_nil] at h
      rw [String.toList_injective h, hf, hf']
    · refine absurd ?_ ha
      rw [List.append_nil] at h
      rw [h]
      exact List.mem_append_right _ List.mem_cons_self
  · split at h
    · refine absurd ?_ hb
      rw [List.append_nil] at h
      rw [← h]
      exact List.mem_append_right _ List.mem_cons_self
    · obtain ⟨hname, hfilter⟩ := Text.append_cons_inj ha hb h
      rw [String.toList_injective hname, String.toList_injective hfilter]

end Selection

namespace Request

theorem toList_key (request : Request) :
    request.key.toList =
      request.dialect.label.toList ++
        ':' :: (request.selection.name.toList ++ request.selection.mark) := by
  unfold key Selection.mark
  dsimp only
  split
  · simp only [String.toList_append, List.append_nil]
    rw [List.append_assoc]
    rfl
  · simp only [String.toList_append, List.append_assoc]
    rfl

/-- The name of a list decides where the filter begins, so equal keys are of equal requests. -/
theorem eq_of_key_eq {a b : Request} (ha : '@' ∉ a.selection.name.toList)
    (hb : '@' ∉ b.selection.name.toList) (h : a.key = b.key) : a = b := by
  have hl := congrArg String.toList h
  rw [toList_key, toList_key] at hl
  obtain ⟨hd, hs⟩ :=
    Text.append_cons_inj a.dialect.colon_notMem_label b.dialect.colon_notMem_label hl
  have hselection : a.selection = b.selection := Selection.eq_of_marked ha hb hs
  have hdialect : a.dialect = b.dialect := Dialect.label_injective (String.toList_injective hd)
  calc
    a = ⟨a.selection, a.dialect⟩ := rfl
    _ = ⟨b.selection, b.dialect⟩ := by rw [hselection, hdialect]

end Request

theorem Memo.identity_inj {key key' fingerprint fingerprint' : String}
    (hf : '\n' ∉ fingerprint.toList) (hf' : '\n' ∉ fingerprint'.toList)
    (h : identity key (some fingerprint) = identity key' (some fingerprint')) :
    key = key' ∧ fingerprint = fingerprint' := by
  have hl := congrArg String.toList h
  simp only [identity, Option.getD_some, String.toList_append, List.append_assoc] at hl
  obtain ⟨hfingerprint, hkey⟩ := Text.append_cons_inj hf hf' hl
  exact ⟨String.toList_injective hkey, String.toList_injective hfingerprint⟩

end DomainRules
