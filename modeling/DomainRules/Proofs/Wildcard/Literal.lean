import DomainRules.Proofs.Regex.Literal
import DomainRules.Proofs.Wildcard.Danger

namespace DomainRules

namespace Regex

open Text

/-- The ways to spell out a text as an expression: its escaped form, alone or between the start and
the finish, with slashes around it or without. -/
def literalSpellings (s : List Char) : List (List Char) :=
  [escaped s, '^' :: escaped s ++ ['$'], '/' :: escaped s ++ ['/'],
    '/' :: ('^' :: escaped s ++ ['$']) ++ ['/']]

theorem source_of_notMem {text : List Char} (h : '/' ∉ text) : source text = text := by
  have hlast : text.getLast? ≠ some '/' := fun he => h (List.mem_of_getLast? he)
  cases text with
  | nil => rfl
  | cons c rest =>
    have hc : c ≠ '/' := fun he => h (he ▸ List.mem_cons_self)
    simp [source, hc, hlast]

theorem source_slashed (text : List Char) : source ('/' :: text ++ ['/']) = text := by
  have hlast : (text ++ ['/']).getLast? = some '/' := List.getLast?_concat
  calc source ('/' :: text ++ ['/'])
      = if (text ++ ['/']).getLast? = some '/' then (text ++ ['/']).dropLast
        else text ++ ['/'] := rfl
    _ = text := by rw [if_pos hlast, List.dropLast_concat]

theorem slash_notMem_escaped {s : List Char} (h : '/' ∉ s) : '/' ∉ escaped s := by
  intro hmem
  obtain ⟨c, hc, hin⟩ := List.mem_flatMap.mp hmem
  have hne : '/' ≠ c := fun he => h (he ▸ hc)
  split at hin <;> simp [hne] at hin

theorem exists_read?_of_mem_literalSpellings {s text : List Char} (hslash : '/' ∉ s)
    (h : text ∈ literalSpellings s) :
    ∃ r, read? text = some r ∧ r.wildcard = units s ∧ r.isLossy = false := by
  have hescaped := slash_notMem_escaped hslash
  have hanchored : '/' ∉ '^' :: escaped s ++ ['$'] := by simp [hescaped]
  have hwild : (literals s).flatMap wildcard = units s := by
    rw [literals, List.flatMap_map]
    exact List.flatMap_singleton' (units s)
  have hlossy : (literals s).any isLossy = false := by
    rw [literals, List.any_map]
    exact List.any_eq_false.mpr fun u _ => Bool.false_ne_true
  have hplain : ∃ r, ofUnits? (units (escaped s)) = some r ∧ r.wildcard = units s ∧
      r.isLossy = false := by
    refine ⟨_, ofUnits?_escaped s, ?_, ?_⟩
    · rw [wildcard_sequence, hwild]
    · rw [isLossy_sequence, hlossy]
  have hframed : ∃ r, ofUnits? (units ('^' :: escaped s ++ ['$'])) = some r ∧
      r.wildcard = units s ∧ r.isLossy = false := by
    refine ⟨_, ofUnits?_anchored s, ?_, ?_⟩
    · rw [wildcard_sequence, List.flatMap_append, List.flatMap_cons, hwild]
      exact List.append_nil _
    · rw [isLossy_sequence, List.any_append, List.any_cons, hlossy]
      rfl
  simp only [literalSpellings, List.mem_cons, List.not_mem_nil, or_false] at h
  rcases h with rfl | rfl | rfl | rfl
  · rwa [read?, source_of_notMem hescaped]
  · rwa [read?, source_of_notMem hanchored]
  · rwa [read?, source_slashed]
  · rwa [read?, source_slashed]

end Regex

namespace Text

variable {s : List Char} {u : UInt16}

theorem sign_mem_of_mem_units (hu : u ∈ units s) (h : u.toNat < 0x80) : sign u ∈ s := by
  obtain ⟨c, hc, huc⟩ := List.mem_flatMap.mp hu
  rwa [Regex.sign_eq_of_mem_unitsOfChar huc h]

theorem exists_mem_unitsOfChar (c : Char) : ∃ u, u ∈ unitsOfChar c := by
  unfold unitsOfChar
  dsimp only
  split <;> exact ⟨_, List.mem_cons_self⟩

/-- As a wildcard, a text without the two signs stands for itself; it is no pattern if it holds
something else than dots. -/
theorem not_broad_units (hstar : '*' ∉ s) (hquestion : '?' ∉ s) (hletter : ∃ c ∈ s, c ≠ '.') :
    (∃ u ∈ units s, u ≠ starUnit ∧ u ≠ questionUnit ∧ u ≠ dotUnit) ∧
      (units s).count questionUnit ≤ 2 := by
  have hnoStar : starUnit ∉ units s := fun hu => hstar (sign_mem_of_mem_units hu (by decide))
  have hnoQuestion : questionUnit ∉ units s := fun hu =>
    hquestion (sign_mem_of_mem_units hu (by decide))
  refine ⟨?_, ?_⟩
  · obtain ⟨c, hc, hdot⟩ := hletter
    obtain ⟨u, hu⟩ := exists_mem_unitsOfChar c
    have hmem : u ∈ units s := List.mem_flatMap.mpr ⟨c, hc, hu⟩
    refine ⟨u, hmem, ?_, ?_, ?_⟩
    · rintro rfl
      exact hnoStar hmem
    · rintro rfl
      exact hnoQuestion hmem
    · rintro rfl
      exact hdot (Regex.sign_eq_of_mem_unitsOfChar hu (by decide)).symm
  · rw [List.count_eq_zero_of_not_mem hnoQuestion]
    exact Nat.zero_le 2

end Text

/-- An expression that spells out one text, of whatever form, is read and translated into that text,
is not dangerous, and is published as a wildcard. -/
theorem literalSpellings_published {s : List Char} (hslash : '/' ∉ s) (hstar : '*' ∉ s)
    (hquestion : '?' ∉ s) (hletter : ∃ c ∈ s, c ≠ '.') :
    ∀ text ∈ Regex.literalSpellings s,
      (∃ r, Regex.read? text = some r) ∧ Wildcard.ofText text = Text.units s ∧
        isDangerous text = false ∧ ∀ comment : String,
          (Rule.surgeLine ⟨.regex, String.ofList text, comment⟩).toList =
            withComment ("DOMAIN-WILDCARD,".toList ++ s) comment.toList := by
  intro text htext
  obtain ⟨r, hread, hwildcard, hlossy⟩ := Regex.exists_read?_of_mem_literalSpellings hslash htext
  have hof : Wildcard.ofText text = Text.units s := by
    rw [Wildcard.ofText, hread]
    exact hwildcard
  -- The text holds neither sign and not only dots, so as a wildcard it is not too wide.
  have hnarrow := Text.not_broad_units hstar hquestion hletter
  have hbroad : Wildcard.isBroad (Text.units s) = false :=
    ((Wildcard.not_broad_and_not_bare_iff (Text.units s)).mpr hnarrow).1
  refine ⟨⟨r, hread⟩, hof, ?_, ?_⟩
  · rw [isDangerous, hread]
    dsimp only
    rw [hlossy, hwildcard, hbroad]
    rfl
  · intro comment
    have hpublishable : r.IsPublishable := by
      refine ⟨(Regex.isLossy_eq_false_iff r).mp hlossy, ?_, ?_⟩
      · rw [hwildcard]
        exact hnarrow.1
      · rw [hwildcard]
        exact hnarrow.2
    have hpublished : Rule.refusal? ⟨.regex, String.ofList text, comment⟩ = none := by
      apply (Rule.refusal?_eq_none_iff rfl).mpr
      rw [String.toList_ofList]
      exact ⟨r, hread, hpublishable⟩
    have hvalue : Rule.publishedValue ⟨.regex, String.ofList text, comment⟩ = s := by
      rw [Rule.publishedValue, Rule.wildcardText, String.toList_ofList, hof, Text.ofUnits_units]
    rw [Rule.toList_surgeLine_of_published hpublished, hvalue]
    rfl

/-- A text with signs of expressions, a backslash in front of a letter and a pair of units. -/
theorem literalSpellings_published_signs :
    Wildcard.ofText "/^a\\\\d\\.\\(😀\\)\\$$/".toList = Text.units "a\\d.(😀)$".toList ∧
      isDangerous "a\\\\d\\.\\(😀\\)\\$".toList = false ∧
      Rule.surgeLine ⟨.regex, "/^a\\\\d\\.\\(😀\\)\\$$/", ""⟩ = "DOMAIN-WILDCARD,a\\d.(😀)$" := by
  have hspelled : ∀ text ∈ Regex.literalSpellings "a\\d.(😀)$".toList, _ :=
    literalSpellings_published (by decide) (by decide) (by decide) ⟨'a', by decide, by decide⟩
  obtain ⟨-, hof, -, hline⟩ := hspelled "/^a\\\\d\\.\\(😀\\)\\$$/".toList (by decide)
  obtain ⟨-, -, hsafe, -⟩ := hspelled "a\\\\d\\.\\(😀\\)\\$".toList (by decide)
  exact ⟨hof, hsafe, String.toList_injective (hline "")⟩

end DomainRules
