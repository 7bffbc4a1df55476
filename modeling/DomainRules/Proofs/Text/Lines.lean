import DomainRules.Text.Blank
import Mathlib.Data.List.TakeWhile

namespace DomainRules.Text

theorem splitOn_eq (separator : Char) (s : List Char) :
    splitOn separator s = s.splitOn separator := by
  induction s with
  | nil => rfl
  | cons c rest ih =>
    rw [splitOn, List.splitOn, List.splitOnP_cons_eq_if_modifyHead]
    by_cases hc : c = separator
    · simp [hc, ih, List.splitOn]
    · rw [if_neg hc, if_neg (by simpa using hc), ih, List.splitOn]
      cases hp : List.splitOnP (fun x => x == separator) rest with
      | nil => exact absurd hp (List.splitOnP_ne_nil _ rest)
      | cons piece pieces => rfl

theorem notMem_of_mem_splitOn {separator : Char} {s piece : List Char}
    (h : piece ∈ splitOn separator s) : separator ∉ piece := by
  induction s generalizing piece with
  | nil =>
    rw [List.mem_singleton.mp h]
    exact List.not_mem_nil
  | cons c rest ih =>
    rw [splitOn] at h
    split at h
    · rcases List.mem_cons.mp h with rfl | h
      · exact List.not_mem_nil
      · exact ih h
    · rename_i hc
      cases hs : splitOn separator rest with
      | nil =>
        rw [hs] at h
        rw [List.mem_singleton.mp h]
        simpa using Ne.symm hc
      | cons first pieces =>
        rw [hs] at h ih
        rcases List.mem_cons.mp h with rfl | h
        · have hfirst := ih List.mem_cons_self
          simp [hfirst, Ne.symm hc]
        · exact ih (List.mem_cons_of_mem first h)

theorem splitOn_of_notMem {separator : Char} {s : List Char} (h : separator ∉ s) :
    splitOn separator s = [s] := by
  rw [splitOn_eq, List.splitOn]
  apply List.splitOnP_eq_singleton
  intro c hc
  exact beq_eq_false_iff_ne.mpr fun he => h (he ▸ hc)

theorem splitOn_append_cons {separator : Char} {s : List Char} (h : separator ∉ s)
    (rest : List Char) :
    splitOn separator (s ++ separator :: rest) = s :: splitOn separator rest := by
  rw [splitOn_eq, splitOn_eq, List.splitOn, List.splitOn]
  apply List.splitOnP_append_cons_of_forall_mem
  · intro c hc
    exact beq_eq_false_iff_ne.mpr fun he => h (he ▸ hc)
  · exact beq_self_eq_true separator

/-- The lines of a text. A text without characters has none. -/
def linesOf (s : List Char) : List (List Char) := if s = [] then [] else splitOn '\n' s

theorem linesOf_eq_nil_iff {s : List Char} : linesOf s = [] ↔ s = [] := by
  have hsplit : splitOn '\n' s ≠ [] := by
    rw [splitOn_eq]
    exact List.splitOnP_ne_nil _ s
  unfold linesOf
  split
  · exact iff_of_true rfl ‹s = []›
  · exact iff_of_false hsplit ‹s ≠ []›

theorem notMem_of_mem_linesOf {s line : List Char} (h : line ∈ linesOf s) : '\n' ∉ line := by
  unfold linesOf at h
  split at h
  · cases h
  · exact notMem_of_mem_splitOn h

theorem linesOf_intercalate {lines : List (List Char)}
    (h : ∀ line ∈ lines, line ≠ [] ∧ '\n' ∉ line) :
    linesOf (['\n'].intercalate lines) = lines := by
  by_cases hn : lines = []
  · rw [hn]
    rfl
  have hsplit : splitOn '\n' (['\n'].intercalate lines) = lines := by
    rw [splitOn_eq]
    exact List.splitOn_intercalate '\n' (fun line hl => (h line hl).2) hn
  have htext : ['\n'].intercalate lines ≠ [] := by
    intro he
    rw [he] at hsplit
    have hempty : ([] : List Char) ∈ lines := hsplit ▸ List.mem_cons_self
    exact (h [] hempty).1 rfl
  rw [linesOf, if_neg htext, hsplit]

theorem joinWith_eq_intercalate (separator : List Char) (pieces : List (List Char)) :
    joinWith separator pieces = separator.intercalate pieces := by
  induction pieces with
  | nil => rfl
  | cons piece pieces ih =>
    cases pieces with
    | nil => rw [joinWith, List.intercalate_singleton]
    | cons next pieces => rw [joinWith, ih, List.intercalate_cons_cons, List.append_assoc]

theorem cut_append {separator : Char} {piece rest : List Char} (hpiece : separator ∉ piece)
    (hrest : rest = [] ∨ rest.head? = some separator) :
    (piece ++ rest).takeWhile (· ≠ separator) = piece ∧
      (piece ++ rest).dropWhile (· ≠ separator) = rest := by
  have hall : ∀ c ∈ piece, decide (c ≠ separator) = true := by
    intro c hc
    apply decide_eq_true
    rintro rfl
    exact hpiece hc
  rw [List.takeWhile_append_of_pos hall, List.dropWhile_append_of_pos hall]
  rcases hrest with rfl | hhead
  · exact ⟨List.append_nil piece, rfl⟩
  · obtain ⟨more, rfl⟩ := List.head?_eq_some_iff.mp hhead
    simp

theorem mem_of_mem_trim {c : Char} {s : List Char} (h : c ∈ trim s) : c ∈ s := by
  rw [trim, trimEnd, List.mem_reverse] at h
  have hstart := (List.dropWhile_suffix isBlank).subset h
  exact (List.dropWhile_suffix isBlank).subset (List.mem_reverse.mp hstart)

theorem head?_trim {c : Char} (hc : isBlank c = false) (s : List Char) :
    (trim (c :: s)).head? = some c := by
  have hstart : trimStart (c :: s) = c :: s := List.dropWhile_cons_of_neg (by simp [hc])
  have hend : ((c :: s).reverse.dropWhile isBlank).getLast? = some c := by
    rw [List.reverse_cons, List.dropWhile_append]
    split
    · rw [List.dropWhile_cons_of_neg (by simp [hc])]
      rfl
    · exact List.getLast?_concat
  rw [trim, hstart, trimEnd, List.head?_reverse, hend]

theorem trim_of_forall {s : List Char} (h : ∀ c ∈ s, isBlank c = true) : trim s = [] := by
  rw [trim, trimStart, List.dropWhile_eq_nil_iff.mpr h]
  rfl

theorem trim_append {s gap tail : List Char} (hg : ∀ c ∈ gap, isBlank c = true)
    (ht : ∀ c ∈ tail, isBlank c = true) (hne : s ≠ []) (hhead : ∀ c ∈ s.head?, isBlank c = false)
    (hlast : ∀ c ∈ s.getLast?, isBlank c = false) : trim (gap ++ s ++ tail) = s := by
  have hkept : ∀ t : List Char, (∀ c ∈ t.head?, isBlank c = false) → t.dropWhile isBlank = t := by
    intro t ht
    cases t with
    | nil => rfl
    | cons c t => exact List.dropWhile_cons_of_neg (by simp [ht c rfl])
  have hstart : (s ++ tail).dropWhile isBlank = s ++ tail := by
    apply hkept
    obtain ⟨c, more, rfl⟩ := List.exists_cons_of_ne_nil hne
    exact hhead
  have hend : s.reverse.dropWhile isBlank = s.reverse := by
    apply hkept
    rw [List.head?_reverse]
    exact hlast
  have htail : ∀ c ∈ tail.reverse, isBlank c = true := fun c hc => ht c (List.mem_reverse.mp hc)
  rw [trim, trimStart, List.append_assoc, List.dropWhile_append_of_pos hg, hstart, trimEnd,
    List.reverse_append, List.dropWhile_append_of_pos htail, hend, List.reverse_reverse]

theorem exists_slashes (base : List Char) :
    ∃ slashes, base = dropTrailingSlashes base ++ slashes ∧ (∀ c ∈ slashes, c = '/') ∧
      (dropTrailingSlashes base).getLast? ≠ some '/' := by
  have hsplit := List.takeWhile_append_dropWhile (p := fun c : Char => decide (c = '/'))
    (l := base.reverse)
  refine ⟨(base.reverse.takeWhile (· = '/')).reverse, ?_, ?_, ?_⟩
  · rw [dropTrailingSlashes, ← List.reverse_append, hsplit, List.reverse_reverse]
  · intro c hc
    have hslash := List.mem_takeWhile_imp (List.mem_reverse.mp hc)
    exact of_decide_eq_true hslash
  · rw [dropTrailingSlashes, List.getLast?_reverse]
    intro hlast
    have hno := List.head?_dropWhile_not (fun c : Char => decide (c = '/')) base.reverse
    rw [hlast] at hno
    cases hno

end DomainRules.Text
