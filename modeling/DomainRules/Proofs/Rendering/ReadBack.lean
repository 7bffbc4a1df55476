import DomainRules.Proofs.Expansion.Selection
import DomainRules.Proofs.Rendering.Lines
import DomainRules.Rendering

namespace DomainRules

def lineKinds : List (List Char × Comparison) :=
  [("DOMAIN-SUFFIX".toList, .suffix), ("DOMAIN".toList, .exact),
    ("DOMAIN-KEYWORD".toList, .keyword), ("DOMAIN-REGEX".toList, .regex)]

/-- The kind and the value that a line gives. The name of the kind ends at the first comma, and the
value behind it ends at the first space. -/
def Rule.ofLine? (line : List Char) : Option (Comparison × String) :=
  match line.dropWhile (· ≠ ',') with
  | [] => none
  | _ :: behind => (lineKinds.lookup (line.takeWhile (· ≠ ','))).map fun kind =>
      (kind, String.ofList (behind.takeWhile (· ≠ ' ')))

def ruleLines (text : String) : List (List Char) :=
  (Text.linesOf text.toList).filter (fun line => line.head? ≠ some '#')

namespace Rule

variable {rule : Rule}

theorem toList_mihomoLine (rule : Rule) :
    rule.mihomoLine.toList =
      withComment (rule.kind.lineName ++ ',' :: rule.value.toList) rule.comment.toList :=
  String.toList_ofList

theorem head?_mihomoLine (rule : Rule) : rule.mihomoLine.toList.head? = some 'D' := by
  obtain ⟨name, hname⟩ : ∃ name, rule.kind.lineName = 'D' :: name := by
    cases rule.kind <;> exact ⟨_, rfl⟩
  rw [toList_mihomoLine, hname, List.cons_append, head?_withComment]

theorem isMarked_mihomoLine (rule : Rule) : isMarked rule.mihomoLine = false := by
  rw [isMarked, head?_mihomoLine]
  rfl

theorem notMem_mihomoLine (h : rule.OnOneLine) : '\n' ∉ rule.mihomoLine.toList := by
  have hname : '\n' ∉ rule.kind.lineName := by cases rule.kind <;> decide
  have hvalue := h.value
  rw [toList_mihomoLine]
  apply notMem_withComment
  · simp [hname, hvalue]
  · exact h.comment

theorem ofLine?_mihomoLine (h : ' ' ∉ rule.value.toList) :
    ofLine? rule.mihomoLine.toList = some (rule.kind, rule.value) := by
  obtain ⟨rest, hline, hrest⟩ := exists_withComment_eq
    (rule.kind.lineName ++ ',' :: rule.value.toList) rule.comment.toList
  have hcomma : ',' ∉ rule.kind.lineName := by cases rule.kind <;> decide
  have hrule : (',' :: (rule.value.toList ++ rest)).head? = some ',' := rfl
  have hname := Text.cut_append hcomma (.inr hrule)
  have hvalue := (Text.cut_append h hrest).1
  have hkind : lineKinds.lookup rule.kind.lineName = some rule.kind := by
    cases rule.kind <;> decide
  rw [toList_mihomoLine, hline, List.append_assoc, List.cons_append, ofLine?, hname.1, hname.2]
  dsimp only
  rw [hkind, hvalue, String.ofList_toList]
  rfl

end Rule

section Items

variable {items : List Item}

theorem linesOf_render_mihomo (h : ∀ item ∈ items, item.OnOneLine) :
    Text.linesOf (render .mihomo items).toList =
      (Rendering.lines Rule.mihomoLine [] "" items).map String.toList := by
  apply Rendering.linesOf_ofLines h
  intro rule hr
  constructor
  · intro hempty
    have hhead := rule.head?_mihomoLine
    rw [hempty] at hhead
    cases hhead
  · exact rule.notMem_mihomoLine (onOneLine_of_mem_rulesOf h hr)

theorem ruleLines_render_mihomo (h : ∀ item ∈ items, item.OnOneLine) :
    ruleLines (render .mihomo items) = (rulesOf items).map fun rule => rule.mihomoLine.toList := by
  have hcomments : ∀ rule ∈ rulesOf items,
      isCommentLine rule.mihomoLine = isMarked rule.mihomoLine :=
    fun rule _ => isCommentLine_eq_isMarked rule.head?_mihomoLine rfl
  have hkept : ((rulesOf items).map Rule.mihomoLine).filter (!isMarked ·) =
      (rulesOf items).map Rule.mihomoLine := by
    apply List.filter_eq_self.mpr
    intro line hl
    obtain ⟨rule, -, rfl⟩ := List.mem_map.mp hl
    rw [rule.isMarked_mihomoLine]
    rfl
  rw [ruleLines, linesOf_render_mihomo h, Rendering.filter_lines_of_onOneLine h hcomments, hkept,
    List.map_map]
  rfl

theorem comment_of_mem_linesOf (h : ∀ item ∈ items, item.OnOneLine) {line : List Char}
    (hl : line ∈ Text.linesOf (render .mihomo items).toList) (hmark : line.head? = some '#') :
    .comment (String.ofList line) ∈ items := by
  rw [linesOf_render_mihomo h] at hl
  obtain ⟨written, hw, rfl⟩ := List.mem_map.mp hl
  rw [String.ofList_toList]
  rcases Rendering.mem_lines hw with hm | ⟨rfl, hne⟩ | hc | ⟨rule, -, rfl⟩
  · cases hm
  · exact absurd rfl hne
  · exact hc
  · rw [rule.head?_mihomoLine] at hmark
    cases hmark

end Items

/-- The rules of a member are read back from its text in the dialect with regular expressions, one
from each line that is no comment, and every comment is one of the items. -/
theorem ruleLines_read_back {archive : Archive} {filter name : String} {items : List Item}
    (h : (expandMember archive filter name).result = .ok items) :
    (ruleLines (render .mihomo items)).map Rule.ofLine? =
        (rulesOf items).map (fun rule => some (rule.kind, rule.value)) ∧
      ∀ line ∈ Text.linesOf (render .mihomo items).toList, line.head? = some '#' →
        .comment (String.ofList line) ∈ items := by
  have hitems := onOneLine_of_mem_expandMember h
  constructor
  · rw [ruleLines_render_mihomo hitems, List.map_map]
    apply List.map_congr_left
    intro rule hr
    exact Rule.ofLine?_mihomoLine (space_notMem_value_of_mem_expandMember h hr)
  · intro line hl
    exact comment_of_mem_linesOf hitems hl

/-- A list that includes another one, with comments behind values and a comma in an expression. -/
def portals : Archive :=
  ⟨[("portals", .text "# portals\ndomain:g.co @cn # main\ninclude:video\nregexp:^a{1,2}\\.g$"),
    ("video", .text "keyword:tube #v\n# end")]⟩

def portalItems : List Item :=
  [.comment "# portals", .rule ⟨.suffix, "g.co", "@cn # main"⟩, .comment "# include:video",
    .rule ⟨.keyword, "tube", "#v"⟩, .comment "# end", .rule ⟨.regex, "^a{1,2}\\.g$", ""⟩]

theorem ruleLines_read_back_portals :
    (expandMember portals "" "portals").result = .ok portalItems ∧
      (ruleLines (render .mihomo portalItems)).map Rule.ofLine? =
        [some (.suffix, "g.co"), some (.keyword, "tube"), some (.regex, "^a{1,2}\\.g$")] := by
  have hportals : portals.read "portals" =
      .ok "# portals\ndomain:g.co @cn # main\ninclude:video\nregexp:^a{1,2}\\.g$" := rfl
  have hvideo : portals.read "video" = .ok "keyword:tube #v\n# end" := rfl
  have hlines : Line.ofText "# portals\ndomain:g.co @cn # main\ninclude:video\nregexp:^a{1,2}\\.g$" =
      [.comment "# portals", .rule ⟨.suffix, "g.co", "@cn # main"⟩,
        .inclusion "video" "include:video", .rule ⟨.regex, "^a{1,2}\\.g$", ""⟩] := by
    decide +kernel
  have hvideoLines : Line.ofText "keyword:tube #v\n# end" =
      [.rule ⟨.keyword, "tube", "#v"⟩, .comment "# end"] := by decide +kernel
  have hitems : (expandMember portals "" "portals").result = .ok portalItems := by
    rw [result_expandMember_of_read hportals, hlines, expand_comment,
      expand_rule_of_selected _ _ _ (Rule.isSelectedBy_empty _),
      expand_inclusion_read "" (by decide) (by decide) hvideo, hvideoLines,
      expand_rule_of_selected _ _ _ (Rule.isSelectedBy_empty _), expand_comment, expand_nil,
      expand_rule_of_selected _ _ _ (Rule.isSelectedBy_empty _), expand_nil]
    rfl
  exact ⟨hitems, (ruleLines_read_back hitems).1⟩

end DomainRules
