import DomainRules.Proofs.Rendering.LineOriented

namespace DomainRules

namespace Regex

/-- An expression occurs in another one, at any depth. -/
inductive IsPartOf : Regex → Regex → Prop where
  | refl (r : Regex) : IsPartOf r r
  | look {part body : Regex} (behind negated : Bool) (h : IsPartOf part body) :
    IsPartOf part (look behind negated body)
  | group {part body : Regex} (kind : GroupKind) (h : IsPartOf part body) :
    IsPartOf part (group kind body)
  | repeated {part body : Regex} (times : Repetition) (isLazy : Bool) (h : IsPartOf part body) :
    IsPartOf part (repeated body times isLazy)
  | first {part first : Regex} (rest : Regex) (h : IsPartOf part first) :
    IsPartOf part (concat first rest)
  | rest {part rest : Regex} (first : Regex) (h : IsPartOf part rest) :
    IsPartOf part (concat first rest)
  | left {part left : Regex} (right : Regex) (h : IsPartOf part left) :
    IsPartOf part (either left right)
  | right {part right : Regex} (left : Regex) (h : IsPartOf part right) :
    IsPartOf part (either left right)

/-- A class, a letter escape, a choice, a repetition in braces, a lookaround or a backreference. -/
def isImprecise : Regex → Bool
  | oneOf _ _ => true
  | escape _ _ => true
  | either _ _ => true
  | repeated _ (.counted _ _) _ => true
  | look _ _ _ => true
  | backreference _ => true
  | _ => false

theorem isLossy_of_isImprecise {r : Regex} (h : r.isImprecise = true) : r.isLossy = true := by
  cases r with
  | escape kind negated => rfl
  | oneOf negated members => rfl
  | look behind negated body => rfl
  | backreference target => rfl
  | either left right => rfl
  | repeated body times isLazy =>
    cases times with
    | counted least most => rfl
    | _ => cases h
  | _ => cases h

theorem isLossy_of_isPartOf {part r : Regex} (h : part.IsPartOf r)
    (hpart : part.isImprecise = true) : r.isLossy = true := by
  induction h with
  | refl => exact isLossy_of_isImprecise hpart
  | look behind negated _ _ => rfl
  | group kind _ ih => exact ih
  | repeated times isLazy _ ih =>
    cases times with
    | counted least most => rfl
    | _ => exact ih
  | first rest _ ih => rw [isLossy, ih, Bool.true_or]
  | rest first _ ih => rw [isLossy, ih, Bool.or_true]
  | left right _ _ => rfl
  | right left _ _ => rfl

theorem isLossy_iff_exists_part (r : Regex) :
    r.isLossy = true ↔ ∃ part : Regex, part.IsPartOf r ∧ part.isImprecise = true := by
  constructor
  · intro h
    -- By the recursion of the check: each step goes to a part, or stops at an imprecise one.
    induction r with
    | empty => cases h
    | unit u => cases h
    | any => cases h
    | start => cases h
    | finish => cases h
    | wordEdge negated => cases h
    | escape kind negated => exact ⟨_, .refl _, rfl⟩
    | oneOf negated members => exact ⟨_, .refl _, rfl⟩
    | look behind negated body _ => exact ⟨_, .refl _, rfl⟩
    | backreference target => exact ⟨_, .refl _, rfl⟩
    | either left right _ _ => exact ⟨_, .refl _, rfl⟩
    | group kind body ih =>
      obtain ⟨part, hpart, himprecise⟩ := ih h
      exact ⟨part, .group kind hpart, himprecise⟩
    | repeated body times isLazy ih =>
      cases times with
      | counted least most => exact ⟨_, .refl _, rfl⟩
      | _ =>
        obtain ⟨part, hpart, himprecise⟩ := ih h
        exact ⟨part, .repeated _ isLazy hpart, himprecise⟩
    | concat first rest ihf ihr =>
      rw [isLossy, Bool.or_eq_true] at h
      rcases h with h | h
      · obtain ⟨part, hpart, himprecise⟩ := ihf h
        exact ⟨part, .first rest hpart, himprecise⟩
      · obtain ⟨part, hpart, himprecise⟩ := ihr h
        exact ⟨part, .rest first hpart, himprecise⟩
  · rintro ⟨part, hpart, himprecise⟩
    exact isLossy_of_isPartOf hpart himprecise

/-- No part is imprecise, and the wildcard is neither empty of literals nor too wide. -/
structure IsPublishable (r : Regex) : Prop where
  precise : ∀ part : Regex, part.IsPartOf r → part.isImprecise = false
  literal : ∃ u ∈ r.wildcard, u ≠ starUnit ∧ u ≠ questionUnit ∧ u ≠ dotUnit
  narrow : r.wildcard.count questionUnit ≤ 2

theorem isLossy_eq_false_iff (r : Regex) :
    r.isLossy = false ↔ ∀ part : Regex, part.IsPartOf r → part.isImprecise = false := by
  rw [← Bool.not_eq_true, isLossy_iff_exists_part]
  simp only [not_exists, not_and, Bool.not_eq_true]

end Regex

theorem Wildcard.not_broad_and_not_bare_iff (w : Wildcard) :
    w.isBroad = false ∧ w.isBare = false ↔
      (∃ u ∈ w, u ≠ starUnit ∧ u ≠ questionUnit ∧ u ≠ dotUnit) ∧ w.count questionUnit ≤ 2 := by
  have hsigns : w.all (fun u => u == starUnit || u == questionUnit || u == dotUnit) = false ↔
      ∃ u ∈ w, u ≠ starUnit ∧ u ≠ questionUnit ∧ u ≠ dotUnit := by
    simp only [List.all_eq_false, Bool.or_eq_true, beq_iff_eq, not_or, and_assoc]
  constructor
  · rintro ⟨hbroad, hbare⟩
    -- The empty wildcard is not broad, but it is bare.
    have hne : w.isEmpty = false := by
      cases w with
      | nil => cases hbare
      | cons u w => rfl
    rw [isBroad, hne, Bool.not_false, Bool.true_and, Bool.or_eq_false_iff, hsigns,
      decide_eq_false_iff_not] at hbroad
    exact ⟨hbroad.1, by omega⟩
  · rintro ⟨hliteral, hcount⟩
    have hall := hsigns.mpr hliteral
    refine ⟨?_, ?_⟩
    · rw [isBroad, hall, Bool.false_or, Bool.and_eq_false_iff, decide_eq_false_iff_not]
      exact .inr (by omega)
    · obtain ⟨u, hu, hstar, hquestion, -⟩ := hliteral
      rw [isBare, List.all_eq_false]
      exact ⟨u, hu, by simp [hstar, hquestion]⟩

theorem Rule.refusal?_eq_none_iff {rule : Rule} (hk : rule.kind = .regex) :
    rule.refusal? = none ↔
      ∃ r, Regex.read? rule.value.toList = some r ∧ r.IsPublishable := by
  have hrefusal : rule.refusal? = none ↔
      isDangerous rule.value.toList = false ∧
        (Wildcard.ofText rule.value.toList).isBare = false := by
    simp only [refusal?, hk]
    cases isDangerous rule.value.toList <;>
      cases (Wildcard.ofText rule.value.toList).isBare <;> simp
  rw [hrefusal, isDangerous, Wildcard.ofText]
  cases Regex.read? rule.value.toList with
  | none => simp
  | some r =>
    dsimp only
    rw [Bool.or_eq_false_iff, and_assoc, Wildcard.not_broad_and_not_bare_iff,
      Regex.isLossy_eq_false_iff]
    constructor
    · rintro ⟨hprecise, hliteral, hnarrow⟩
      exact ⟨r, rfl, hprecise, hliteral, hnarrow⟩
    · rintro ⟨own, hown, h⟩
      rw [Option.some.inj hown]
      exact ⟨h.precise, h.literal, h.narrow⟩

/-- A rule on a regular expression becomes an active line exactly if the expression can be read, no
part of it is imprecise, and its wildcard holds a literal other than the dot and at most two question
marks. Otherwise its line is one comment. -/
theorem surgeLine_active_iff {rule : Rule} (hk : rule.kind = .regex) (hc : rule.comment = "")
    (hne : rule.value ≠ "") (hfeed : '\n' ∉ rule.value.toList) :
    (rule.surgeLine = "DOMAIN-WILDCARD," ++ String.ofList rule.wildcardText ∧
        isCommentLine rule.surgeLine = false ↔
      ∃ r, Regex.read? rule.value.toList = some r ∧ r.IsPublishable) ∧
    ((∀ r, Regex.read? rule.value.toList = some r → ¬ r.IsPublishable) →
      rule.surgeLine.toList.head? = some '#' ∧ '\n' ∉ rule.surgeLine.toList ∧
        isCommentLine rule.surgeLine = true) := by
  -- A line is a comment exactly if its rule is refused, and refused is what is not publishable.
  have hpublished := Rule.refusal?_eq_none_iff hk
  obtain ⟨c, hhead, hblank⟩ := rule.exists_head?_surgeLine
  have hcomment : isCommentLine rule.surgeLine = rule.refusal?.isSome := by
    rw [isCommentLine_eq_isMarked hhead hblank, rule.isMarked_surgeLine]
  refine ⟨?_, ?_⟩
  · rw [← hpublished, hcomment]
    constructor
    · rintro ⟨-, hactive⟩
      simpa using hactive
    · intro h
      refine ⟨?_, by rw [h]; rfl⟩
      have hname : rule.publishedName ++ ',' :: rule.publishedValue =
          "DOMAIN-WILDCARD,".toList ++ rule.wildcardText := by
        rw [Rule.publishedName, Rule.publishedValue, hk]
        rfl
      have hrest : rule.comment.toList = [] := by rw [hc]; rfl
      apply String.toList_injective
      calc rule.surgeLine.toList
          = withComment (rule.publishedName ++ ',' :: rule.publishedValue)
              rule.comment.toList := Rule.toList_surgeLine_of_published h
        _ = "DOMAIN-WILDCARD,".toList ++ rule.wildcardText := by rw [hname, hrest, withComment]
        _ = ("DOMAIN-WILDCARD," ++ String.ofList rule.wildcardText).toList := by
          rw [String.toList_append, @String.toList_ofList rule.wildcardText]
  · intro hnone
    obtain ⟨refusal, hrefusal⟩ : ∃ refusal, rule.refusal? = some refusal := by
      apply Option.ne_none_iff_exists'.mp
      intro h
      obtain ⟨r, hr, hp⟩ := hpublished.mp h
      exact hnone r hr hp
    have honeLine : rule.OnOneLine := by
      refine ⟨hne, hfeed, ?_⟩
      rw [hc]
      exact List.not_mem_nil
    refine ⟨Rule.head?_surgeLine_of_refused hrefusal, ?_, ?_⟩
    · apply Rule.notMem_surgeLine honeLine
      intro hp
      cases hp.symm.trans hrefusal
    · rw [hcomment, hrefusal]
      rfl

/-- A lazy repetition inside an optional group is published; braces in its place, even those that
mean the same, are not. -/
theorem surgeLine_active_iff_nested :
    Rule.surgeLine ⟨.regex, "^(a.+?\\.)?ads$", ""⟩ =
        "DOMAIN-WILDCARD," ++ String.ofList (Rule.wildcardText ⟨.regex, "^(a.+?\\.)?ads$", ""⟩) ∧
      isCommentLine (Rule.surgeLine ⟨.regex, "^(a.{1,}?\\.)?ads$", ""⟩) = true := by
  let front (times : Repetition) : Regex := .repeated (.group (.capture none)
    (.concat (.unit 0x61) (.concat (.repeated .any times true) (.concat (.unit 0x2E) .empty))))
    .optional false
  let whole (times : Repetition) : Regex := .concat .start (.concat (front times)
    (.concat (.unit 0x61) (.concat (.unit 0x64) (.concat (.unit 0x73) (.concat .finish .empty)))))
  have hplus : Regex.read? "^(a.+?\\.)?ads$".toList = some (whole .plus) := by decide +kernel
  have hbraces : Regex.read? "^(a.{1,}?\\.)?ads$".toList = some (whole (.counted 1 none)) := by
    decide +kernel
  have hpublishable : (whole .plus).IsPublishable := by
    refine ⟨(Regex.isLossy_eq_false_iff _).mp rfl, ⟨0x61, ?_, ?_⟩, ?_⟩ <;> decide
  have hactive := (@surgeLine_active_iff ⟨.regex, "^(a.+?\\.)?ads$", ""⟩ rfl rfl
    (by decide) (by decide)).1
  have hrefused := (@surgeLine_active_iff ⟨.regex, "^(a.{1,}?\\.)?ads$", ""⟩ rfl rfl
    (by decide) (by decide)).2
  refine ⟨(hactive.mpr ⟨whole .plus, hplus, hpublishable⟩).1, (hrefused ?_).2.2⟩
  intro r hr hp
  rw [← Option.some.inj (hbraces.symm.trans hr)] at hp
  exact absurd ((Regex.isLossy_eq_false_iff _).mpr hp.precise) (by decide)

end DomainRules
