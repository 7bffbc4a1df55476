import DomainRules.Proofs.Expansion.Items
import DomainRules.Rendering.Lines

namespace DomainRules

def isMarked (line : String) : Bool := line.toList.head? == some '#'

theorem isCommentLine_eq_isMarked {line : String} {c : Char} (h : line.toList.head? = some c)
    (hc : Text.isBlank c = false) : isCommentLine line = isMarked line := by
  obtain ⟨rest, hrest⟩ := List.head?_eq_some_iff.mp h
  rw [isCommentLine, isMarked, hrest, Text.head?_trim hc]
  rfl

section Comments

variable {line comment : List Char}

theorem head?_withComment (c : Char) (line comment : List Char) :
    (withComment (c :: line) comment).head? = some c := by
  unfold withComment
  split <;> rfl

theorem notMem_withComment (hl : '\n' ∉ line) (hc : '\n' ∉ comment) :
    '\n' ∉ withComment line comment := by
  unfold withComment
  split
  · exact hl
  · simpa [hl] using hc
  · simpa [hl] using hc

theorem mem_withComment {c : Char} (hl : c ∈ line) (comment : List Char) :
    c ∈ withComment line comment := by
  unfold withComment
  split
  · exact hl
  · exact List.mem_append_left _ hl
  · exact List.mem_append_left _ hl

theorem exists_withComment_eq (line comment : List Char) :
    ∃ rest, withComment line comment = line ++ rest ∧ (rest = [] ∨ rest.head? = some ' ') := by
  unfold withComment
  split
  · exact ⟨[], (List.append_nil line).symm, .inl rfl⟩
  · exact ⟨_, rfl, .inr rfl⟩
  · exact ⟨_, rfl, .inr rfl⟩

end Comments

@[simp] theorem rulesOf_rule_cons (rule : Rule) (items : List Item) :
    rulesOf (.rule rule :: items) = rule :: rulesOf items := rfl

namespace Rendering

variable {lineOf : Rule → String}

theorem mem_lines {marks : List String} {latest line : String} {items : List Item}
    (h : line ∈ lines lineOf marks latest items) :
    line ∈ marks ∨ line = latest ∧ latest ≠ "" ∨ .comment line ∈ items ∨
      ∃ rule ∈ rulesOf items, line = lineOf rule := by
  -- The recursion carries what is held back, so a line of the text may come from there as well.
  fun_induction lines lineOf marks latest items with
  | case1 => cases h
  | case2 marks latest text items hmark ih =>
    rcases ih h with hm | hl | hc | ⟨rule, hr, he⟩
    · rcases List.mem_append.mp hm with hm | hm
      · exact .inl hm
      · rw [List.mem_singleton.mp hm]
        exact .inr (.inr (.inl List.mem_cons_self))
    · exact .inr (.inl hl)
    · exact .inr (.inr (.inl (List.mem_cons_of_mem _ hc)))
    · exact .inr (.inr (.inr ⟨rule, hr, he⟩))
  | case3 marks latest text items hmark ih =>
    rcases ih h with hm | ⟨rfl, -⟩ | hc | ⟨rule, hr, he⟩
    · exact .inl hm
    · exact .inr (.inr (.inl List.mem_cons_self))
    · exact .inr (.inr (.inl (List.mem_cons_of_mem _ hc)))
    · exact .inr (.inr (.inr ⟨rule, hr, he⟩))
  | case4 marks latest rule items own hcomment ih =>
    rcases ih h with hm | ⟨rfl, -⟩ | hc | ⟨other, hr, he⟩
    · exact .inl hm
    · exact .inr (.inr (.inr ⟨rule, List.mem_cons_self, rfl⟩))
    · exact .inr (.inr (.inl (List.mem_cons_of_mem _ hc)))
    · exact .inr (.inr (.inr ⟨other, List.mem_cons_of_mem _ hr, he⟩))
  | case5 marks latest rule items own hcomment ih =>
    rcases List.mem_append.mp h with hheld | hlater
    · rcases List.mem_append.mp hheld with hm | hl
      · exact .inl hm
      · split at hl
        · cases hl
        · rename_i hlatest
          exact .inr (.inl ⟨List.mem_singleton.mp hl, hlatest⟩)
    · rcases List.mem_cons.mp hlater with rfl | hlater
      · exact .inr (.inr (.inr ⟨rule, List.mem_cons_self, rfl⟩))
      · rcases ih hlater with hm | ⟨rfl, hl⟩ | hc | ⟨other, hr, he⟩
        · cases hm
        · exact absurd rfl hl
        · exact .inr (.inr (.inl (List.mem_cons_of_mem _ hc)))
        · exact .inr (.inr (.inr ⟨other, List.mem_cons_of_mem _ hr, he⟩))

theorem filter_eq_nil_of_marked {held : List String} (h : ∀ line ∈ held, isMarked line = true) :
    held.filter (!isMarked ·) = [] :=
  List.filter_eq_nil_iff.mpr fun line hl => by simp [h line hl]

theorem filter_lines {marks : List String} {latest : String} {items : List Item}
    (hmarks : ∀ mark ∈ marks, isMarked mark = true) (hlatest : latest ≠ "" → isMarked latest = true)
    (hcomments : ∀ text, .comment text ∈ items → isMarked text = true)
    (hrules : ∀ rule ∈ rulesOf items, isCommentLine (lineOf rule) = isMarked (lineOf rule)) :
    (lines lineOf marks latest items).filter (!isMarked ·) =
      ((rulesOf items).map lineOf).filter (!isMarked ·) := by
  fun_induction lines lineOf marks latest items with
  | case1 => rfl
  | case2 marks latest text items hmark ih =>
    have htext := hcomments text List.mem_cons_self
    refine ih (fun mark hm => ?_) hlatest
      (fun other ho => hcomments other (List.mem_cons_of_mem _ ho)) hrules
    rcases List.mem_append.mp hm with hm | hm
    · exact hmarks mark hm
    · rwa [List.mem_singleton.mp hm]
  | case3 marks latest text items hmark ih =>
    have htext := hcomments text List.mem_cons_self
    exact ih hmarks (fun _ => htext)
      (fun other ho => hcomments other (List.mem_cons_of_mem _ ho)) hrules
  | case4 marks latest rule items own hcomment ih =>
    -- A rule line that is taken for a comment is marked, so it is left out as well.
    have hown : isMarked own = true := (hrules rule List.mem_cons_self).symm.trans hcomment
    rw [rulesOf_rule_cons, List.map_cons, List.filter_cons_of_neg (by simpa using hown)]
    exact ih hmarks (fun _ => hown)
      (fun other ho => hcomments other (List.mem_cons_of_mem _ ho))
      (fun other ho => hrules other (List.mem_cons_of_mem _ ho))
  | case5 marks latest rule items own hcomment ih =>
    -- The comments that were held back come first. All of them are marked.
    have hown : isMarked own = false :=
      (hrules rule List.mem_cons_self).symm.trans (eq_false_of_ne_true hcomment)
    have hheld : ∀ line ∈ marks ++ (if latest = "" then [] else [latest]),
        isMarked line = true := by
      intro line hl
      rcases List.mem_append.mp hl with hl | hl
      · exact hmarks line hl
      · split at hl
        · cases hl
        · rename_i hne
          rw [List.mem_singleton.mp hl]
          exact hlatest hne
    have hrest := ih (fun mark hm => by cases hm) (fun hne => absurd rfl hne)
      (fun other ho => hcomments other (List.mem_cons_of_mem _ ho))
      (fun other ho => hrules other (List.mem_cons_of_mem _ ho))
    have hkeep (rest : List String) :
        (own :: rest).filter (!isMarked ·) = own :: rest.filter (!isMarked ·) :=
      List.filter_cons_of_pos (by rw [hown]; rfl)
    calc
      _ = (own :: lines lineOf [] "" items).filter (!isMarked ·) := by
        rw [List.filter_append, filter_eq_nil_of_marked hheld, List.nil_append]
      _ = own :: ((rulesOf items).map lineOf).filter (!isMarked ·) := by rw [hkeep, hrest]
      _ = ((rulesOf (.rule rule :: items)).map lineOf).filter (!isMarked ·) := (hkeep _).symm

section Items

variable {items : List Item}

/-- What is written is made of lines that hold no line feed, so it can be cut into them again. -/
theorem linesOf_ofLines (hitems : ∀ item ∈ items, item.OnOneLine)
    (hrules : ∀ rule ∈ rulesOf items, lineOf rule ≠ "" ∧ '\n' ∉ (lineOf rule).toList) :
    Text.linesOf (ofLines lineOf items).toList =
      (lines lineOf [] "" items).map String.toList := by
  have hlines : ∀ line ∈ (lines lineOf [] "" items).map String.toList,
      line ≠ [] ∧ '\n' ∉ line := by
    intro line hl
    obtain ⟨written, hw, rfl⟩ := List.mem_map.mp hl
    -- What is written is a comment of the items or the line of a rule: nothing was held back before.
    rcases mem_lines hw with hm | ⟨rfl, hne⟩ | hc | ⟨rule, hr, rfl⟩
    · cases hm
    · exact absurd rfl hne
    · obtain ⟨hhead, hfeed⟩ := hitems _ hc
      refine ⟨fun hnil => ?_, hfeed⟩
      rw [hnil] at hhead
      cases hhead
    · obtain ⟨hne, hfeed⟩ := hrules rule hr
      exact ⟨fun hnil => hne (String.toList_injective hnil), hfeed⟩
  rw [ofLines, String.toList_intercalate]
  exact Text.linesOf_intercalate hlines

theorem filter_lines_of_onOneLine (hitems : ∀ item ∈ items, item.OnOneLine)
    (hrules : ∀ rule ∈ rulesOf items, isCommentLine (lineOf rule) = isMarked (lineOf rule)) :
    ((lines lineOf [] "" items).map String.toList).filter (fun line => line.head? ≠ some '#') =
      (((rulesOf items).map lineOf).filter (!isMarked ·)).map String.toList := by
  have hmarked : (fun line : List Char => decide (line.head? ≠ some '#')) ∘ String.toList =
      (!isMarked ·) := by
    funext line
    by_cases hhead : line.toList.head? = some '#' <;> simp [isMarked, hhead]
  rw [List.filter_map, hmarked]
  congr 1
  refine filter_lines (fun mark hm => by cases hm) (fun hne => absurd rfl hne) ?_ hrules
  intro text hc
  rw [isMarked, (hitems _ hc).1]
  rfl

end Items

end Rendering

theorem onOneLine_of_mem_rulesOf {items : List Item} (h : ∀ item ∈ items, item.OnOneLine)
    {rule : Rule} (hr : rule ∈ rulesOf items) : rule.OnOneLine := h _ (mem_rulesOf.mp hr)

end DomainRules
