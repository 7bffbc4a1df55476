import DomainRules.Rendering

namespace DomainRules.Rendering

/-- A rule, and the items between it and the active rule before it. -/
structure Stretch where
  held : List Item
  rule : Rule
  deriving DecidableEq, Repr

def Stretch.items (stretch : Stretch) : List Item := stretch.held ++ [.rule stretch.rule]

section Blocks

variable (lineOf : Rule → String)

def isActive : Item → Bool
  | .rule rule => !isCommentLine (lineOf rule)
  | .comment _ => false

def mark? : Item → Option String
  | .comment text => if isInclusionMark text then some text else none
  | .rule _ => none

/-- Any other comment, or a rule line that is commented out. -/
def remark? : Item → Option String
  | .comment text => if isInclusionMark text then none else some text
  | .rule rule => if isCommentLine (lineOf rule) then some (lineOf rule) else none

/-- The lines of a stretch: all marks, the latest remark unless it is empty, and the rule line. -/
def block (stretch : Stretch) : List String :=
  stretch.held.filterMap mark? ++
    ((stretch.held.filterMap (remark? lineOf)).getLast?.filter (· ≠ "")).toList ++
    [lineOf stretch.rule]

structure IsCut (items : List Item) (stretches : List Stretch) (rest : List Item) : Prop where
  items_eq : items = stretches.flatMap Stretch.items ++ rest
  active : ∀ stretch ∈ stretches, isActive lineOf (.rule stretch.rule) = true
  held : ∀ stretch ∈ stretches, ∀ item ∈ stretch.held, isActive lineOf item = false
  rest : ∀ item ∈ rest, isActive lineOf item = false

/-- A text is made of the blocks of the stretches, in order, and of nothing else. -/
def InBlocks (items : List Item) (text : String) : Prop :=
  ∃ stretches rest, IsCut lineOf items stretches rest ∧
    text = String.intercalate "\n" (stretches.flatMap (block lineOf))

variable {lineOf}

theorem lines_append_of_held {held : List Item} (h : ∀ item ∈ held, isActive lineOf item = false)
    (marks : List String) (latest : String) (items : List Item) :
    lines lineOf marks latest (held ++ items) =
      lines lineOf (marks ++ held.filterMap mark?)
        ((held.filterMap (remark? lineOf)).getLastD latest) items := by
  -- What is held back grows with every item, so the induction is for any marks and remark.
  induction held generalizing marks latest with
  | nil =>
    rw [List.filterMap_nil, List.append_nil]
    rfl
  | cons item held ih =>
    have hrest := ih fun other ho => h other (List.mem_cons_of_mem item ho)
    rw [List.cons_append]
    cases item with
    | comment text =>
      by_cases hmark : isInclusionMark text = true
      · have hown : mark? (.comment text) = some text := if_pos hmark
        have hnone : remark? lineOf (.comment text) = none := if_pos hmark
        rw [lines, if_pos hmark, hrest, List.filterMap_cons_some hown,
          List.filterMap_cons_none hnone, List.append_assoc, List.singleton_append]
      · have hnone : mark? (.comment text) = none := if_neg hmark
        have hown : remark? lineOf (.comment text) = some text := if_neg hmark
        rw [lines, if_neg hmark, hrest, List.filterMap_cons_none hnone,
          List.filterMap_cons_some hown, List.getLastD_cons]
    | rule rule =>
      have hline : isCommentLine (lineOf rule) = true := by
        simpa [isActive] using h (.rule rule) List.mem_cons_self
      have hnone : mark? (.rule rule) = none := rfl
      have hown : remark? lineOf (.rule rule) = some (lineOf rule) := if_pos hline
      rw [lines, if_pos hline, hrest, List.filterMap_cons_none hnone,
        List.filterMap_cons_some hown, List.getLastD_cons]

theorem toList_filter_getLast? (remarks : List String) :
    (remarks.getLast?.filter (· ≠ "")).toList =
      if remarks.getLastD "" = "" then [] else [remarks.getLastD ""] := by
  rw [List.getLastD_eq_getLast?]
  cases remarks.getLast? with
  | none => rfl
  | some remark =>
    by_cases hempty : remark = ""
    · simp [hempty]
    · simp [hempty]

theorem lines_stretch {stretch : Stretch} (hactive : isActive lineOf (.rule stretch.rule) = true)
    (hheld : ∀ item ∈ stretch.held, isActive lineOf item = false) (items : List Item) :
    lines lineOf [] "" (stretch.items ++ items) =
      block lineOf stretch ++ lines lineOf [] "" items := by
  have hline : ¬ isCommentLine (lineOf stretch.rule) = true := by simpa [isActive] using hactive
  rw [Stretch.items, List.append_assoc, lines_append_of_held hheld, List.singleton_append, lines,
    if_neg hline, block, toList_filter_getLast?]
  simp only [List.nil_append, List.append_assoc, List.singleton_append]

theorem lines_of_isCut {items rest : List Item} {stretches : List Stretch}
    (h : IsCut lineOf items stretches rest) :
    lines lineOf [] "" items = stretches.flatMap (block lineOf) := by
  have hrest : lines lineOf [] "" rest = [] := by
    have hheld := lines_append_of_held h.rest [] "" []
    rwa [List.append_nil, lines] at hheld
  have hstretches : ∀ some ⊆ stretches,
      lines lineOf [] "" (some.flatMap Stretch.items ++ rest) = some.flatMap (block lineOf) := by
    intro some hsome
    induction some with
    | nil => exact hrest
    | cons stretch more ih =>
      obtain ⟨hmem, hmore⟩ := List.cons_subset.mp hsome
      rw [List.flatMap_cons, List.append_assoc,
        lines_stretch (h.active stretch hmem) (h.held stretch hmem), ih hmore, List.flatMap_cons]
  rw [h.items_eq]
  exact hstretches stretches (List.Subset.refl stretches)

theorem exists_isCut (lineOf : Rule → String) (items : List Item) :
    ∃ stretches rest, IsCut lineOf items stretches rest := by
  induction items with
  | nil => exact ⟨[], [], rfl, by simp, by simp, by simp⟩
  | cons item items ih =>
    obtain ⟨stretches, rest, hcut⟩ := ih
    by_cases hactive : isActive lineOf item = true
    · -- An active rule is a stretch by itself.
      cases item with
      | comment text => cases hactive
      | rule rule =>
        refine ⟨⟨[], rule⟩ :: stretches, rest, ?_, ?_, ?_, hcut.rest⟩
        · rw [hcut.items_eq]
          rfl
        · exact List.forall_mem_cons.mpr ⟨hactive, hcut.active⟩
        · exact List.forall_mem_cons.mpr ⟨by simp, hcut.held⟩
    · -- Any other item belongs to the stretch that follows, or to the rest.
      have hitem := eq_false_of_ne_true hactive
      cases stretches with
      | nil =>
        refine ⟨[], item :: rest, ?_, by simp, by simp, ?_⟩
        · rw [hcut.items_eq]
          rfl
        · exact List.forall_mem_cons.mpr ⟨hitem, hcut.rest⟩
      | cons stretch stretches =>
        obtain ⟨hown, hothers⟩ := List.forall_mem_cons.mp hcut.held
        refine ⟨⟨item :: stretch.held, stretch.rule⟩ :: stretches, rest, ?_, ?_, ?_, hcut.rest⟩
        · rw [hcut.items_eq]
          rfl
        · exact List.forall_mem_cons.mpr (List.forall_mem_cons.mp hcut.active)
        · exact List.forall_mem_cons.mpr ⟨List.forall_mem_cons.mpr ⟨hitem, hown⟩, hothers⟩

theorem inBlocks_ofLines (items : List Item) : InBlocks lineOf items (ofLines lineOf items) := by
  obtain ⟨stretches, rest, hcut⟩ := exists_isCut lineOf items
  exact ⟨stretches, rest, hcut, by rw [ofLines, lines_of_isCut hcut]⟩

end Blocks

end DomainRules.Rendering

namespace DomainRules

/-- Both line dialects write their rules in blocks, whatever the items are. -/
theorem render_inBlocks (items : List Item) :
    Rendering.InBlocks Rule.surgeLine items (render .surge items) ∧
      Rendering.InBlocks Rule.mihomoLine items (render .mihomo items) :=
  ⟨Rendering.inBlocks_ofLines items, Rendering.inBlocks_ofLines items⟩

/-- Marks stay, the latest remark wins, and what follows the last rule is dropped. -/
example : render .mihomo [.comment "# a", .comment "# include:x", .comment "# b",
    .rule ⟨.exact, "g.co", ""⟩, .comment "# c"] = "# include:x\n# b\nDOMAIN,g.co" := by
  decide +kernel

end DomainRules
