import DomainRules.Proofs.Expansion.Selection
import DomainRules.Proofs.Rendering.Lines
import DomainRules.Rendering

namespace DomainRules

theorem Text.ofUnits_ne_nil {units : List UInt16} (h : units ≠ []) : ofUnits units ≠ [] := by
  match units with
  | [] => exact absurd rfl h
  | [u] => exact List.cons_ne_nil _ _
  | u :: v :: rest =>
    rw [ofUnits]
    split <;> exact List.cons_ne_nil _ _

theorem Wildcard.ofText_eq_nil_of_isBare {text : List Char} (hsafe : isDangerous text = false)
    (hbare : (ofText text).isBare = true) : ofText text = [] := by
  unfold isDangerous at hsafe
  unfold ofText at hbare ⊢
  cases hread : Regex.read? text with
  | none => rfl
  | some r =>
    rw [hread, Bool.or_eq_false_iff] at hsafe
    rw [hread] at hbare
    have hall : r.wildcard.all (fun u => u == starUnit || u == questionUnit || u == dotUnit) =
        true := by
      refine List.all_eq_true.mpr fun u hu => ?_
      rw [List.all_eq_true.mp hbare u hu, Bool.true_or]
    have hbroad := hsafe.2
    rw [isBroad, hall, Bool.true_or, Bool.and_true] at hbroad
    simpa using hbroad

namespace Rule

variable {rule : Rule}

/-- The name under which a rule is published where only wildcards are understood. -/
def publishedName (rule : Rule) : List Char :=
  match rule.kind with
  | .regex => "DOMAIN-WILDCARD".toList
  | kind => kind.lineName

def publishedValue (rule : Rule) : List Char :=
  match rule.kind with
  | .regex => rule.wildcardText
  | _ => rule.value.toList

theorem publishedName_mem (rule : Rule) :
    rule.publishedName ∈ ["DOMAIN-SUFFIX".toList, "DOMAIN".toList, "DOMAIN-KEYWORD".toList,
      "DOMAIN-WILDCARD".toList] := by
  unfold publishedName
  cases rule.kind <;> decide

theorem toList_surgeLine_of_published (h : rule.refusal? = none) :
    rule.surgeLine.toList =
      withComment (rule.publishedName ++ ',' :: rule.publishedValue) rule.comment.toList := by
  unfold surgeLine publishedName publishedValue
  cases hk : rule.kind <;> simp [mihomoLine, lineOf, hk, h]

theorem kind_of_refused {refusal : Refusal} (h : rule.refusal? = some refusal) :
    rule.kind = .regex := by
  unfold refusal? at h
  split at h
  · assumption
  · cases h

theorem wildcardText_of_bare (h : rule.refusal? = some .bare) : rule.wildcardText = [] := by
  have hk := kind_of_refused h
  simp only [refusal?, hk] at h
  split at h
  · cases h
  · rename_i hsafe
    split at h
    · rename_i hbare
      rw [wildcardText, Wildcard.ofText_eq_nil_of_isBare (eq_false_of_ne_true hsafe) hbare]
      rfl
    · cases h

theorem toList_surgeLine_of_refused {refusal : Refusal} (h : rule.refusal? = some refusal) :
    ∃ name value : List Char, '\n' ∉ name ∧ (value = rule.value.toList ∨ value = []) ∧
      rule.surgeLine.toList = withComment ('#' :: (name ++ ',' :: value)) rule.comment.toList := by
  have hk := kind_of_refused h
  cases refusal with
  | dangerous =>
    refine ⟨" DANGEROUS-REGEX".toList, rule.value.toList, by decide, .inl rfl, ?_⟩
    simp [surgeLine, hk, h, lineOf]
  | bare =>
    refine ⟨" SKIPPED-DOMAIN-WILDCARD".toList, [], by decide, .inr rfl, ?_⟩
    simp [surgeLine, hk, h, lineOf, wildcardText_of_bare h]

theorem publishedValue_ne_nil (hline : rule.OnOneLine) (h : rule.refusal? = none) :
    rule.publishedValue ≠ [] := by
  have hvalue : rule.value.toList ≠ [] := fun he =>
    hline.value_ne (String.toList_injective he)
  unfold publishedValue
  cases hk : rule.kind with
  | regex =>
    simp only [refusal?, hk] at h
    split at h
    · cases h
    · split at h
      · cases h
      · rename_i hbare
        refine Text.ofUnits_ne_nil fun hnil => hbare ?_
        rw [hnil]
        rfl
  | suffix => exact hvalue
  | exact => exact hvalue
  | keyword => exact hvalue

theorem head?_surgeLine_of_refused {refusal : Refusal} (h : rule.refusal? = some refusal) :
    rule.surgeLine.toList.head? = some '#' := by
  obtain ⟨name, value, -, -, he⟩ := toList_surgeLine_of_refused h
  rw [he, head?_withComment]

theorem head?_surgeLine_of_published (h : rule.refusal? = none) :
    rule.surgeLine.toList.head? = some 'D' := by
  obtain ⟨name, hname⟩ : ∃ name, rule.publishedName = 'D' :: name := by
    unfold publishedName
    cases rule.kind <;> exact ⟨_, rfl⟩
  rw [toList_surgeLine_of_published h, hname, List.cons_append, head?_withComment]

theorem isMarked_surgeLine (rule : Rule) : isMarked rule.surgeLine = rule.refusal?.isSome := by
  cases h : rule.refusal? with
  | none =>
    rw [isMarked, head?_surgeLine_of_published h]
    rfl
  | some refusal =>
    rw [isMarked, head?_surgeLine_of_refused h]
    rfl

theorem exists_head?_surgeLine (rule : Rule) :
    ∃ c, rule.surgeLine.toList.head? = some c ∧ Text.isBlank c = false := by
  cases h : rule.refusal? with
  | none => exact ⟨'D', head?_surgeLine_of_published h, rfl⟩
  | some refusal => exact ⟨'#', head?_surgeLine_of_refused h, rfl⟩

theorem notMem_surgeLine (hline : rule.OnOneLine)
    (hwild : rule.refusal? = none → rule.kind = .regex → '\n' ∉ rule.wildcardText) :
    '\n' ∉ rule.surgeLine.toList := by
  cases h : rule.refusal? with
  | none =>
    have hvalue : '\n' ∉ rule.publishedValue := by
      unfold publishedValue
      cases hk : rule.kind with
      | regex => exact hwild h hk
      | suffix => exact hline.value
      | exact => exact hline.value
      | keyword => exact hline.value
    have hname : '\n' ∉ rule.publishedName := by
      unfold publishedName
      cases rule.kind <;> decide
    rw [toList_surgeLine_of_published h]
    exact notMem_withComment (by simp [hname, hvalue]) hline.comment
  | some refusal =>
    obtain ⟨name, value, hname, hvalue, he⟩ := toList_surgeLine_of_refused h
    have hv : '\n' ∉ value := by
      rcases hvalue with rfl | rfl
      · exact hline.value
      · exact List.not_mem_nil
    rw [he]
    exact notMem_withComment (by simp [hname, hv]) hline.comment

end Rule

def publishedRules (items : List Item) : List Rule :=
  (rulesOf items).filter (·.refusal?.isNone)

/-- Every line of a text is a comment, or a name with a value behind a comma and perhaps a comment;
and the lines that are no comments are those of the published rules, in order. -/
structure LineOriented (text : String) (items : List Item) : Prop where
  shape : ∀ line ∈ Text.linesOf text.toList, line.head? = some '#' ∨
    ∃ name ∈ ["DOMAIN-SUFFIX".toList, "DOMAIN".toList, "DOMAIN-KEYWORD".toList,
      "DOMAIN-WILDCARD".toList], ∃ value comment : List Char, value ≠ [] ∧
        line = withComment (name ++ ',' :: value) comment
  rules : (Text.linesOf text.toList).filter (fun line => line.head? ≠ some '#') =
    (publishedRules items).map fun rule =>
      withComment (rule.publishedName ++ ',' :: rule.publishedValue) rule.comment.toList

section Items

variable {items : List Item}

theorem linesOf_render_surge (h : ∀ item ∈ items, item.OnOneLine)
    (hwild : ∀ rule ∈ publishedRules items, rule.kind = .regex → '\n' ∉ rule.wildcardText) :
    Text.linesOf (render .surge items).toList =
      (Rendering.lines Rule.surgeLine [] "" items).map String.toList := by
  apply Rendering.linesOf_ofLines h
  intro rule hr
  constructor
  · rintro hempty
    obtain ⟨c, hc, -⟩ := rule.exists_head?_surgeLine
    rw [hempty] at hc
    cases hc
  · refine Rule.notMem_surgeLine (onOneLine_of_mem_rulesOf h hr) fun hp hk => ?_
    exact hwild rule (List.mem_filter.mpr ⟨hr, by rw [hp]; rfl⟩) hk

theorem filter_lines_surge (h : ∀ item ∈ items, item.OnOneLine) :
    ((Rendering.lines Rule.surgeLine [] "" items).map String.toList).filter
        (fun line => line.head? ≠ some '#') =
      (publishedRules items).map fun rule =>
        withComment (rule.publishedName ++ ',' :: rule.publishedValue) rule.comment.toList := by
  have hpublished : (!isMarked ·) ∘ Rule.surgeLine = (·.refusal?.isNone) := by
    funext rule
    rw [Function.comp_apply, rule.isMarked_surgeLine]
    cases rule.refusal? <;> rfl
  have hkeep : ((rulesOf items).map Rule.surgeLine).filter (!isMarked ·) =
      (publishedRules items).map Rule.surgeLine := by
    rw [List.filter_map, hpublished, publishedRules]
  rw [Rendering.filter_lines_of_onOneLine h, hkeep, List.map_map]
  · refine List.map_congr_left fun rule hr => ?_
    have hnone := Option.isNone_iff_eq_none.mp (List.mem_filter.mp hr).2
    exact Rule.toList_surgeLine_of_published hnone
  · intro rule _
    obtain ⟨c, hc, hblank⟩ := rule.exists_head?_surgeLine
    exact isCommentLine_eq_isMarked hc hblank

theorem LineOriented.notMem_publishedValue {text : String} (h : LineOriented text items)
    {rule : Rule} (hr : rule ∈ publishedRules items) : '\n' ∉ rule.publishedValue := by
  intro hfeed
  have hline : withComment (rule.publishedName ++ ',' :: rule.publishedValue) rule.comment.toList ∈
      (Text.linesOf text.toList).filter (fun line => line.head? ≠ some '#') := by
    rw [h.rules]
    exact List.mem_map_of_mem hr
  refine Text.notMem_of_mem_linesOf (List.mem_filter.mp hline).1 (mem_withComment ?_ _)
  exact List.mem_append_right _ (List.mem_cons_of_mem _ hfeed)

end Items

/-- The text of a member where only wildcards are understood is line oriented exactly if no wildcard
that it publishes holds a line feed. -/
theorem lineOriented_render_iff {archive : Archive} {filter name : String} {items : List Item}
    (h : (expandMember archive filter name).result = .ok items) :
    LineOriented (render .surge items) items ↔
      ∀ rule ∈ publishedRules items, rule.kind = .regex → '\n' ∉ rule.wildcardText := by
  have hitems := onOneLine_of_mem_expandMember h
  constructor
  · intro hlines rule hr hk
    have hvalue := hlines.notMem_publishedValue hr
    rwa [Rule.publishedValue, hk] at hvalue
  · intro hwild
    have hwritten := linesOf_render_surge hitems hwild
    have hrules := filter_lines_surge hitems
    rw [← hwritten] at hrules
    refine ⟨fun line hl => ?_, hrules⟩
    by_cases hhead : line.head? = some '#'
    · exact .inl hhead
    · have hmem : line ∈ (Text.linesOf (render .surge items).toList).filter
          (fun line => line.head? ≠ some '#') := List.mem_filter.mpr ⟨hl, by simpa using hhead⟩
      rw [hrules] at hmem
      obtain ⟨rule, hr, rfl⟩ := List.mem_map.mp hmem
      obtain ⟨hin, hp⟩ := List.mem_filter.mp hr
      exact .inr ⟨_, rule.publishedName_mem, _, _,
        Rule.publishedValue_ne_nil (onOneLine_of_mem_rulesOf hitems hin)
          (Option.isNone_iff_eq_none.mp hp), rfl⟩

/-- A list with a comment, a wildcard, and another list with a refused expression. -/
def trackers : Archive :=
  ⟨[("ads", .text "# ads\nregexp:^ad.+\\.com$ @ads\ninclude:more"),
    ("more", .text "full:ad.org\nregexp:^[a-z]+$")]⟩

def trackerItems : List Item :=
  [.comment "# ads", .rule ⟨.regex, "^ad.+\\.com$", "@ads"⟩, .comment "# include:more",
    .rule ⟨.exact, "ad.org", ""⟩, .rule ⟨.regex, "^[a-z]+$", ""⟩]

theorem lineOriented_render_iff_trackers :
    (expandMember trackers "" "ads").result = .ok trackerItems ∧
      LineOriented (render .surge trackerItems) trackerItems := by
  have hads : trackers.read "ads" = .ok "# ads\nregexp:^ad.+\\.com$ @ads\ninclude:more" := rfl
  have hmore : trackers.read "more" = .ok "full:ad.org\nregexp:^[a-z]+$" := rfl
  have hadsLines : Line.ofText "# ads\nregexp:^ad.+\\.com$ @ads\ninclude:more" =
      [.comment "# ads", .rule ⟨.regex, "^ad.+\\.com$", "@ads"⟩,
        .inclusion "more" "include:more"] := by decide +kernel
  have hmoreLines : Line.ofText "full:ad.org\nregexp:^[a-z]+$" =
      [.rule ⟨.exact, "ad.org", ""⟩, .rule ⟨.regex, "^[a-z]+$", ""⟩] := by decide +kernel
  have hitems : (expandMember trackers "" "ads").result = .ok trackerItems := by
    obtain ⟨rest, -, he⟩ := expandMember_of_read "" hads
    rw [he, hadsLines, Reading.result_before, Reading.result_after, expand_comment,
      expand_rule_of_selected _ _ _ (Rule.isSelectedBy_empty _),
      expand_inclusion_read "" (by decide) (by decide) hmore, hmoreLines,
      expand_rule_of_selected _ _ _ (Rule.isSelectedBy_empty _),
      expand_rule_of_selected _ _ _ (Rule.isSelectedBy_empty _), expand_nil, expand_nil]
    rfl
  exact ⟨hitems, (lineOriented_render_iff hitems).mpr (by decide +kernel)⟩

def feeding : Archive := ⟨[("ads", .text "regexp:^ads\\nbank$")]⟩

/-- The second half of the wildcard is no comment and no rule. -/
theorem not_lineOriented_feeding :
    ∃ items, (expandMember feeding "" "ads").result = .ok items ∧
      ¬ LineOriented (render .surge items) items := by
  have hads : feeding.read "ads" = .ok "regexp:^ads\\nbank$" := rfl
  have hlines : Line.ofText "regexp:^ads\\nbank$" =
      [.rule ⟨.regex, "^ads\\nbank$", ""⟩] := by decide +kernel
  refine ⟨[.rule ⟨.regex, "^ads\\nbank$", ""⟩], ?_, fun h => ?_⟩
  · obtain ⟨rest, -, he⟩ := expandMember_of_read "" hads
    rw [he, hlines, Reading.result_before, Reading.result_after,
      expand_rule_of_selected _ _ _ (Rule.isSelectedBy_empty _), expand_nil]
    rfl
  · exact absurd h.rules (by decide +kernel)

end DomainRules
