import DomainRules.Item
import Mathlib.Data.List.Basic

namespace DomainRules

namespace Text

/-- The longest pieces of a text that hold no blank. -/
def words (s : List Char) : List (List Char) := (s.splitOnP isBlank).filter (· ≠ [])

theorem prefix_takeWhile_iff {p : Char → Bool} {piece : List Char}
    (hp : ∀ c ∈ piece, p c = true) (s : List Char) :
    piece <+: s.takeWhile p ↔ piece <+: s := by
  constructor
  · intro h
    exact h.trans (List.takeWhile_prefix p)
  · rintro ⟨rest, rfl⟩
    rw [List.takeWhile_append_of_pos hp]
    exact List.prefix_append piece _

theorem exists_splitOnP_eq_takeWhile (p : Char → Bool) (s : List Char) :
    ∃ pieces, s.splitOnP p = s.takeWhile (!p ·) :: pieces := by
  induction s with
  | nil => exact ⟨[], rfl⟩
  | cons c s ih =>
    obtain ⟨pieces, hpieces⟩ := ih
    rw [List.splitOnP_cons_eq_if_modifyHead, hpieces]
    cases hc : p c with
    | true => exact ⟨s.takeWhile (!p ·) :: pieces, by simp [hc]⟩
    | false => exact ⟨pieces, by simp [hc]⟩

theorem infix_iff_exists_mem_splitOnP {p : Char → Bool} {piece : List Char}
    (hp : ∀ c ∈ piece, p c = false) (s : List Char) :
    piece <:+: s ↔ ∃ part ∈ s.splitOnP p, piece <:+: part := by
  induction s with
  | nil => simp
  | cons c s ih =>
    have hkept : ∀ d ∈ piece, (!p d) = true := by
      intro d hd
      rw [hp d hd]
      rfl
    have hfront := prefix_takeWhile_iff hkept (c :: s)
    obtain ⟨pieces, hpieces⟩ := exists_splitOnP_eq_takeWhile p s
    -- A piece that begins at the front of the text lies in the first part.
    rw [List.infix_cons_iff, ih, List.splitOnP_cons_eq_if_modifyHead, hpieces, ← hfront]
    cases hc : p c with
    | true => simp [hc]
    | false => simp [hc, List.infix_cons_iff, or_assoc]

theorem infix_iff_exists_mem_words {piece : List Char} (hne : piece ≠ [])
    (hblank : ∀ c ∈ piece, isBlank c = false) (s : List Char) :
    piece <:+: s ↔ ∃ word ∈ words s, piece <:+: word := by
  rw [infix_iff_exists_mem_splitOnP hblank]
  constructor
  · rintro ⟨part, hpart, hin⟩
    have hpartNe : part ≠ [] := by
      rintro rfl
      exact hne (List.eq_nil_of_infix_nil hin)
    exact ⟨part, List.mem_filter.mpr ⟨hpart, by simpa using hpartNe⟩, hin⟩
  · rintro ⟨word, hword, hin⟩
    exact ⟨word, (List.mem_filter.mp hword).1, hin⟩

theorem indexOf?_before_iff {piece : List Char} (hne : piece ≠ []) (hsign : '#' ∉ piece)
    (s : List Char) :
    (match indexOf? piece s, indexOf? ['#'] s with
      | none, _ => false
      | some _, none => true
      | some i, some j => decide (i < j)) = true ↔ piece <:+: s.takeWhile (· ≠ '#') := by
  have hkept : ∀ c ∈ piece, decide (c ≠ '#') = true := by
    intro c hc
    exact decide_eq_true fun he => hsign (he ▸ hc)
  induction s with
  | nil =>
    have hempty : piece.isEmpty = false := by simpa using hne
    simp [indexOf?, hempty, hne]
  | cons c s ih =>
    by_cases hc : c = '#'
    · -- Nothing stands in front of the number sign, and nothing begins before its place.
      have hplace : indexOf? ['#'] (c :: s) = some 0 := by simp [indexOf?, hc]
      rw [hplace, List.takeWhile_cons_of_neg (by simpa using hc)]
      cases indexOf? piece (c :: s) <;> simp [hne]
    · have hplace : indexOf? ['#'] (c :: s) = (indexOf? ['#'] s).map (· + 1) := by
        rw [indexOf?, if_neg]
        simpa using Ne.symm hc
      have hfront := prefix_takeWhile_iff hkept (c :: s)
      rw [List.takeWhile_cons_of_pos (by simpa using hc)] at hfront ⊢
      rw [List.infix_cons_iff, hfront, hplace, indexOf?]
      refine Iff.trans ?_ (or_congr Iff.rfl ih)
      by_cases hpiece : piece <+: c :: s
      · rw [if_pos (List.isPrefixOf_iff_prefix.mpr hpiece)]
        cases indexOf? ['#'] s <;> simp [hpiece]
      · rw [if_neg (fun h => hpiece (List.isPrefixOf_iff_prefix.mp h))]
        cases indexOf? piece s <;> cases indexOf? ['#'] s <;> simp [hpiece]

end Text

def attributeText (rest : List Char) : List Char := (Text.trim rest).takeWhile (· ≠ '#')

/-- The text behind a value begins with an attribute, and the one that the filter names is among its
words. -/
structure BearsAttribute (filter rest : List Char) : Prop where
  begins : (attributeText rest).head? = some '@'
  mem : '@' :: filter ∈ Text.words (attributeText rest)

section Filter

variable {filter : List Char}

theorem head?_attributeText (rest : List Char) :
    (attributeText rest).head? = some '@' ↔ (Text.trim rest).head? = some '@' := by
  unfold attributeText
  cases Text.trim rest with
  | nil => rfl
  | cons c s =>
    by_cases hc : c = '#'
    · rw [List.takeWhile_cons_of_neg (by simpa using hc), hc]
      simp
    · rw [List.takeWhile_cons_of_pos (by simpa using hc)]
      rfl

theorem carriesFilter_iff_exists_word (hne : filter ≠ [])
    (hplain : ∀ c ∈ filter, Text.isBlank c = false ∧ c ≠ '@' ∧ c ≠ '#') (rest : List Char) :
    carriesFilter filter rest = true ↔ (attributeText rest).head? = some '@' ∧
      ∃ word ∈ Text.words (attributeText rest), '@' :: filter <:+: word := by
  have hempty : filter.isEmpty = false := by simpa using hne
  have hsign : '#' ∉ '@' :: filter := by
    intro hmem
    rcases List.mem_cons.mp hmem with he | hmem
    · cases he
    · exact (hplain '#' hmem).2.2 rfl
  have hblank : ∀ c ∈ '@' :: filter, Text.isBlank c = false := by
    intro c hc
    rcases List.mem_cons.mp hc with rfl | hc
    · decide
    · exact (hplain c hc).1
  have hbefore := Text.indexOf?_before_iff (List.cons_ne_nil '@' filter) hsign (Text.trim rest)
  rw [Text.infix_iff_exists_mem_words (List.cons_ne_nil '@' filter) hblank] at hbefore
  rw [head?_attributeText, carriesFilter, hempty, Bool.false_or, Bool.and_eq_true, beq_iff_eq]
  exact and_congr_right fun _ => hbefore

end Filter

/-- A filter finds every text that bears its attribute. It finds no other text exactly if no word
holds the attribute only as a part of it. -/
theorem carriesFilter_iff_bearsAttribute_iff {filter rest : List Char} (hne : filter ≠ [])
    (hplain : ∀ c ∈ filter, Text.isBlank c = false ∧ c ≠ '@' ∧ c ≠ '#') :
    (BearsAttribute filter rest → carriesFilter filter rest = true) ∧
      ((carriesFilter filter rest = true ↔ BearsAttribute filter rest) ↔
        ((attributeText rest).head? = some '@' →
          ∀ word ∈ Text.words (attributeText rest), '@' :: filter <:+: word →
            '@' :: filter ∈ Text.words (attributeText rest))) := by
  have hfound := carriesFilter_iff_exists_word hne hplain rest
  have hborne : BearsAttribute filter rest → carriesFilter filter rest = true := by
    intro h
    exact hfound.mpr ⟨h.begins, '@' :: filter, h.mem, List.infix_rfl⟩
  refine ⟨hborne, ?_⟩
  constructor
  · intro h hbegins word hword hin
    exact (h.mp (hfound.mpr ⟨hbegins, word, hword, hin⟩)).mem
  · intro h
    refine ⟨?_, hborne⟩
    intro hcarries
    obtain ⟨hbegins, word, hword, hin⟩ := hfound.mp hcarries
    exact ⟨hbegins, h hbegins word hword hin⟩

/-- Two attributes in front of a comment that names a third one. -/
theorem carriesFilter_iff_bearsAttribute_iff_commented :
    carriesFilter "cn".toList " @ads\t@cn # @cn2".toList = true ∧
      (carriesFilter "cn".toList " @ads\t@cn # @cn2".toList = true ↔
        BearsAttribute "cn".toList " @ads\t@cn # @cn2".toList) := by
  have hplain : ∀ c ∈ "cn".toList, Text.isBlank c = false ∧ c ≠ '@' ∧ c ≠ '#' := by
    simp [Text.isBlank]
  have hiff := (@carriesFilter_iff_bearsAttribute_iff "cn".toList " @ads\t@cn # @cn2".toList
    (by decide) hplain).2
  have hwhole : '@' :: "cn".toList ∈ Text.words (attributeText " @ads\t@cn # @cn2".toList) := by
    decide +kernel
  exact ⟨by decide +kernel, hiff.mpr fun _ _ _ _ => hwhole⟩

/-- A longer attribute that begins with the one that the filter names. -/
theorem carriesFilter_of_longer_attribute :
    carriesFilter "cn".toList "@cn-mirror".toList = true ∧
      ¬ BearsAttribute "cn".toList "@cn-mirror".toList := by
  refine ⟨by decide +kernel, ?_⟩
  intro h
  exact absurd h.mem (by decide +kernel)

end DomainRules
