import DomainRules.Value.Reader

namespace DomainRules.Text

theorem quoteChar_of_printable {c : Char} (hquote : c ≠ '"') (hslash : c ≠ '\\')
    (hprint : 0x20 ≤ c.toNat) : quoteChar c = [c] := by
  have hnumber : ∀ n < 0x20, c.toNat ≠ n := by
    intro n hn
    omega
  have hne : ∀ d : Char, d.toNat < 0x20 → c ≠ d := by
    rintro d hd rfl
    omega
  unfold quoteChar
  rw [if_neg hquote, if_neg hslash, if_neg (hnumber 0x08 (by decide)), if_neg (hne '\t' (by decide)),
    if_neg (hne '\n' (by decide)), if_neg (hnumber 0x0C (by decide)), if_neg (hne '\r' (by decide)),
    if_neg (Nat.not_lt.mpr hprint)]

theorem quote_append (s rest : List Char) :
    quote s ++ rest = '"' :: (s.flatMap quoteChar ++ '"' :: rest) := by
  rw [quote, List.cons_append, List.append_assoc]
  rfl

end DomainRules.Text

namespace DomainRules

namespace Value

open Text

/-- The letters that stand for a character of their own behind a backslash. -/
def letters : List Char := ['"', '\\', '/', 'b', 'f', 'n', 'r', 't']

theorem quoteChar_ofNat_of_control : ∀ n < 0x20,
    (letters.any fun letter => quoteChar (Char.ofNat n) = ['\\', letter] ∧
      escaped? letter = some (Char.ofNat n)) = true ∨
    quoteChar (Char.ofNat n) = ['\\', 'u', '0', '0', hexDigit (n / 16), hexDigit (n % 16)] := by
  decide

theorem quoteChar_cases (c : Char) :
    (quoteChar c = [c] ∧ c ≠ '"' ∧ c ≠ '\\' ∧ 0x20 ≤ c.toNat) ∨
    (∃ letter ∈ letters, quoteChar c = ['\\', letter] ∧ escaped? letter = some c) ∨
    (c.toNat < 0x20 ∧
      quoteChar c = ['\\', 'u', '0', '0', hexDigit (c.toNat / 16), hexDigit (c.toNat % 16)]) := by
  by_cases hcontrol : c.toNat < 0x20
  · have hc := quoteChar_ofNat_of_control c.toNat hcontrol
    rw [Char.ofNat_toNat] at hc
    rcases hc with hc | hc
    · obtain ⟨letter, hmem, hletter⟩ := List.any_eq_true.mp hc
      exact .inr (.inl ⟨letter, hmem, of_decide_eq_true hletter⟩)
    · exact .inr (.inr ⟨hcontrol, hc⟩)
  by_cases hquote : c = '"'
  · rw [hquote]
    exact .inr (.inl ⟨'"', by decide, by decide, by decide⟩)
  by_cases hslash : c = '\\'
  · rw [hslash]
    exact .inr (.inl ⟨'\\', by decide, by decide, by decide⟩)
  · have hprint : 0x20 ≤ c.toNat := Nat.not_lt.mp hcontrol
    exact .inl ⟨quoteChar_of_printable hquote hslash hprint, hquote, hslash, hprint⟩

theorem natOf?_control : ∀ n < 0x20,
    Number.natOf? 16 ['0', '0', hexDigit (n / 16), hexDigit (n % 16)] = some n := by decide

theorem unit_of_control : ∀ n < 0x20,
    isLead n.toUInt16 = false ∧ charOfUnit n.toUInt16 = Char.ofNat n := by decide

theorem pushUnit_of_control {n : Nat} (h : n < 0x20) (found : List Char) :
    Draft.pushUnit { found } n.toUInt16 = { found := Char.ofNat n :: found } := by
  obtain ⟨hlead, hchar⟩ := unit_of_control n h
  rw [Draft.pushUnit, hlead, hchar]
  rfl

theorem quoted?_letter {letter c : Char} (hletter : letter ∈ letters)
    (hspelled : escaped? letter = some c) (found rest : List Char) :
    quoted? { found } ('\\' :: letter :: rest) = quoted? { found := c :: found } rest := by
  have hu : letter ≠ 'u' := by
    rintro rfl
    exact absurd hletter (by decide)
  rw [quoted?, hspelled]
  · rfl
  · intro _ _ _ _ _ he
    exact absurd he hu

theorem quoted?_quoteChar (c : Char) (found rest : List Char) :
    quoted? { found } (quoteChar c ++ rest) = quoted? { found := c :: found } rest := by
  rcases quoteChar_cases c with ⟨hc, hquote, hslash, hprint⟩ | ⟨letter, hletter, hc, hspelled⟩ |
    ⟨hcontrol, hc⟩
  · have hread : ¬ (c.toNat < 0x20 ∨ c = '\\') := not_or.mpr ⟨Nat.not_lt.mpr hprint, hslash⟩
    rw [hc, List.singleton_append, quoted?, if_neg hread]
    · rfl
    · exact hquote
    · intro _ _ _ _ _ he
      exact absurd he hslash
    · intro _ _ he
      exact absurd he hslash
  · rw [hc, List.cons_append, List.singleton_append, quoted?_letter hletter hspelled]
  · rw [hc]
    simp only [List.cons_append, List.nil_append]
    rw [quoted?, natOf?_control c.toNat hcontrol]
    dsimp only [Option.bind_eq_bind, Option.bind_some]
    rw [pushUnit_of_control hcontrol, Char.ofNat_toNat]

theorem quoted?_flatMap_quoteChar (s found rest : List Char) :
    quoted? { found } (s.flatMap quoteChar ++ '"' :: rest) =
      some (String.ofList (found.reverse ++ s), rest) := by
  induction s generalizing found with
  | nil =>
    rw [List.flatMap_nil, List.nil_append, quoted?, List.append_nil]
    rfl
  | cons c s ih =>
    rw [List.flatMap_cons, List.append_assoc, quoted?_quoteChar, ih, List.reverse_cons,
      List.append_assoc]
    rfl

/-- What is read behind the opening quote of a text is the text, up to the closing quote. -/
theorem quoted?_body (s rest : List Char) :
    quoted? {} (s.flatMap quoteChar ++ '"' :: rest) = some (String.ofList s, rest) :=
  quoted?_flatMap_quoteChar s [] rest

end Value

end DomainRules
