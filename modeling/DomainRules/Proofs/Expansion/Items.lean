import DomainRules.Proofs.Expansion.Inclusion
import DomainRules.Proofs.Text.Lines

namespace DomainRules

structure Rule.OnOneLine (rule : Rule) : Prop where
  value_ne : rule.value ≠ ""
  value : '\n' ∉ rule.value.toList
  comment : '\n' ∉ rule.comment.toList

def Item.OnOneLine : Item → Prop
  | .rule r => r.OnOneLine
  | .comment text => text.toList.head? = some '#' ∧ '\n' ∉ text.toList

def Line.OnOneLine : Line → Prop
  | .nothing => True
  | .comment text => text.toList.head? = some '#' ∧ '\n' ∉ text.toList
  | .rule r => r.OnOneLine
  | .inclusion _ text => '\n' ∉ text.toList

/-- What a line adds, by itself or as the comment in front of what it includes. -/
def Line.Yields (filter : String) (line : Line) (item : Item) : Prop :=
  item ∈ line.ownItems filter ∨ ∃ name text, line = .inclusion name text ∧
    item = .comment ("# " ++ text)

namespace Line

theorem exists_of_mem_ofText {text : String} {line : Line} (h : line ∈ ofText text) :
    ∃ piece, '\n' ∉ piece ∧ line = readTrimmed piece := by
  obtain ⟨piece, hpiece, rfl⟩ := List.mem_map.mp h
  have hfeed : '\n' ∉ Text.trim piece := fun hmem =>
    Text.notMem_of_mem_splitOn hpiece (Text.mem_of_mem_trim hmem)
  exact ⟨Text.trim piece, hfeed, rfl⟩

theorem onOneLine_readRule {line : List Char} (h : '\n' ∉ line) : (readRule line).OnOneLine := by
  unfold readRule
  dsimp only
  split
  · exact trivial
  · rename_i hvalue
    refine ⟨?_, ?_, ?_⟩
    · intro he
      have hnil := congrArg String.toList he
      rw [String.toList_ofList] at hnil
      exact hvalue (List.isEmpty_iff.mpr hnil)
    · rw [String.toList_ofList]
      intro hmem
      exact h ((List.takeWhile_prefix _).subset (List.mem_of_mem_drop hmem))
    · rw [String.toList_ofList]
      intro hmem
      exact h ((List.dropWhile_suffix _).subset (List.mem_of_mem_drop hmem))

theorem onOneLine_readTrimmed {line : List Char} (h : '\n' ∉ line) :
    (readTrimmed line).OnOneLine := by
  unfold readTrimmed
  split
  · exact trivial
  · exact ⟨by rw [String.toList_ofList]; rfl, by rwa [String.toList_ofList]⟩
  · split
    · rw [OnOneLine, String.toList_ofList]
      exact h
    · exact onOneLine_readRule h

theorem space_notMem_value {line : List Char} {rule : Rule} (h : readTrimmed line = .rule rule) :
    ' ' ∉ rule.value.toList := by
  have hread : readRule line = .rule rule := by
    unfold readTrimmed at h
    split at h
    · cases h
    · cases h
    · split at h
      · cases h
      · exact h
  unfold readRule at hread
  dsimp only at hread
  split at hread
  · cases hread
  · -- The value is the end of a token, and a token ends before the first space.
    rw [← Line.rule.inj hread, String.toList_ofList]
    intro hmem
    have htoken := List.all_eq_true.mp List.all_takeWhile ' ' (List.mem_of_mem_drop hmem)
    exact absurd rfl (of_decide_eq_true htoken)

theorem Yields.onOneLine {filter : String} {line : Line} {item : Item} (h : line.OnOneLine)
    (hi : line.Yields filter item) : item.OnOneLine := by
  rcases hi with hi | ⟨name, text, rfl, rfl⟩
  · cases line with
    | nothing => cases hi
    | inclusion name text => cases hi
    | comment text =>
      rw [List.mem_singleton.mp hi]
      exact h
    | rule r =>
      rw [ownItems] at hi
      split at hi
      · rw [List.mem_singleton.mp hi]
        exact h
      · cases hi
  · have hmark : ("# " ++ text).toList = '#' :: ' ' :: text.toList := String.toList_append
    rw [OnOneLine] at h
    rw [Item.OnOneLine, hmark]
    exact ⟨rfl, by simpa using h⟩

theorem Yields.eq_rule {filter : String} {line : Line} {rule : Rule}
    (h : line.Yields filter (.rule rule)) : line = .rule rule := by
  rcases h with h | ⟨name, text, -, h⟩
  · cases line with
    | nothing => cases h
    | inclusion name text => cases h
    | comment text => cases List.mem_singleton.mp h
    | rule r =>
      rw [ownItems] at h
      split at h
      · rw [Item.rule.inj (List.mem_singleton.mp h)]
      · cases h
  · cases h

end Line

theorem mem_includedItems {line : String} {items : List Item} {item : Item}
    (h : item ∈ includedItems line items) : item = .comment ("# " ++ line) ∨ item ∈ items := by
  unfold includedItems at h
  split at h
  · cases h
  · exact List.mem_cons.mp h

/-- Every item of an expansion was added by one of its lines, or by a line of an included list. -/
theorem exists_line_of_mem_expand {archive : Archive} {filter : String} {path : List String}
    {lines : List Line} {items : List Item}
    (h : (expand archive filter path lines).result = .ok items) {item : Item} (hi : item ∈ items) :
    ∃ line, (line ∈ lines ∨ ∃ text, line ∈ Line.ofText text) ∧ line.Yields filter item := by
  -- Along the expansion: an item was added by the first line, by the list it includes, or later.
  induction path, lines using expansion_induction archive generalizing items with
  | nil path =>
    rw [expand_nil] at h
    cases h
    cases hi
  | skip path line lines hline ih =>
    obtain ⟨steps, -, he⟩ := expand_cons_of_none hline archive filter path lines
    rw [he] at h
    obtain ⟨rest, hrest, rfl⟩ := Reading.result_map_eq_ok.mp h
    rcases List.mem_append.mp hi with hi | hi
    · exact ⟨line, .inl List.mem_cons_self, .inl hi⟩
    · obtain ⟨other, ho, hyields⟩ := ih hrest hi
      exact ⟨other, ho.imp_left (List.mem_cons_of_mem line), hyields⟩
  | cyclic path name line lines hn hp =>
    exact absurd hp ((result_expand_inclusion_eq_ok hn).mp h).1
  | unread path name line lines failure hn hp hr =>
    obtain ⟨-, text, -, -, hread, -⟩ := (result_expand_inclusion_eq_ok hn).mp h
    cases hr.symm.trans hread
  | read path name line lines text hn hp hr ihsub ihrest =>
    obtain ⟨-, own, inner, rest, hown, hinner, hrest, rfl⟩ :=
      (result_expand_inclusion_eq_ok hn).mp h
    rw [Except.ok.inj (hown.symm.trans hr)] at hinner
    rcases List.mem_append.mp hi with hi | hi
    · rcases mem_includedItems hi with rfl | hi
      · exact ⟨_, .inl List.mem_cons_self, .inr ⟨name, line, rfl, rfl⟩⟩
      · obtain ⟨other, ho, hyields⟩ := ihsub hinner hi
        have hread : ∃ text, other ∈ Line.ofText text := ho.elim (fun ho => ⟨text, ho⟩) id
        exact ⟨other, .inr hread, hyields⟩
    · obtain ⟨other, ho, hyields⟩ := ihrest hrest hi
      exact ⟨other, ho.imp_left (List.mem_cons_of_mem _), hyields⟩

section Members

variable {archive : Archive} {filter name : String} {items : List Item}

theorem exists_line_of_mem_expandMember
    (h : (expandMember archive filter name).result = .ok items) {item : Item} (hi : item ∈ items) :
    ∃ piece, '\n' ∉ piece ∧ (Line.readTrimmed piece).Yields filter item := by
  cases hr : archive.read name with
  | error failure =>
    rw [expandMember_of_unread filter hr] at h
    cases h
  | ok text =>
    rw [result_expandMember_of_read hr] at h
    obtain ⟨line, hline, hyields⟩ := exists_line_of_mem_expand h hi
    have hread : ∃ text, line ∈ Line.ofText text := hline.elim (fun hl => ⟨text, hl⟩) id
    obtain ⟨own, hown⟩ := hread
    obtain ⟨piece, hfeed, rfl⟩ := Line.exists_of_mem_ofText hown
    exact ⟨piece, hfeed, hyields⟩

theorem onOneLine_of_mem_expandMember (h : (expandMember archive filter name).result = .ok items) :
    ∀ item ∈ items, item.OnOneLine := by
  intro item hi
  obtain ⟨piece, hfeed, hyields⟩ := exists_line_of_mem_expandMember h hi
  exact hyields.onOneLine (Line.onOneLine_readTrimmed hfeed)

theorem mem_rulesOf {rule : Rule} : rule ∈ rulesOf items ↔ .rule rule ∈ items := by
  rw [rulesOf, List.mem_filterMap]
  constructor
  · rintro ⟨item, hi, he⟩
    cases item with
    | comment text => cases he
    | rule r => rwa [← Option.some.inj he]
  · intro h
    exact ⟨.rule rule, h, rfl⟩

theorem space_notMem_value_of_mem_expandMember
    (h : (expandMember archive filter name).result = .ok items) {rule : Rule}
    (hr : rule ∈ rulesOf items) : ' ' ∉ rule.value.toList := by
  obtain ⟨piece, -, hyields⟩ := exists_line_of_mem_expandMember h (mem_rulesOf.mp hr)
  exact Line.space_notMem_value hyields.eq_rule

end Members

end DomainRules
