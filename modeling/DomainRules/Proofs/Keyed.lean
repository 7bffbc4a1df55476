import Mathlib.Data.List.Nodup

namespace DomainRules.Keyed

variable {α β : Type} [DecidableEq β] {f : α → β} {xs : List α}

theorem perm_cons_filter (h : (xs.map f).Nodup) {a : α} (ha : a ∈ xs) :
    xs.Perm (a :: xs.filter (f · ≠ f a)) := by
  obtain ⟨before, behind, rfl⟩ := List.append_of_mem ha
  rw [List.map_append, List.map_cons] at h
  have hout : f a ∉ before.map f ++ behind.map f :=
    (List.nodup_cons.mp (List.perm_middle.nodup_iff.mp h)).1
  have hkept : ∀ b ∈ before ++ behind, decide (f b ≠ f a) = true := by
    intro b hb
    apply decide_eq_true
    intro he
    apply hout
    rw [← List.map_append, ← he]
    exact List.mem_map_of_mem hb
  have hfilter : (before ++ a :: behind).filter (f · ≠ f a) = before ++ behind := by
    have hself : decide (f a ≠ f a) = false := decide_eq_false (not_not_intro rfl)
    rw [List.filter_append, List.filter_cons, hself, if_neg Bool.false_ne_true,
      ← List.filter_append]
    exact List.filter_eq_self.mpr hkept
  rw [hfilter]
  exact List.perm_middle

theorem find?_eq_some (h : (xs.map f).Nodup) {a : α} (ha : a ∈ xs) :
    xs.find? (f · = f a) = some a := by
  cases hfound : xs.find? (f · = f a) with
  | none => exact absurd (decide_eq_true rfl) (List.find?_eq_none.mp hfound a ha)
  | some other =>
    have hkey : f other = f a := by simpa using List.find?_some hfound
    rw [List.inj_on_of_nodup_map h (List.mem_of_find?_eq_some hfound) ha hkey]

end DomainRules.Keyed
