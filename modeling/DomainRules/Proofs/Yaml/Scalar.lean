import DomainRules.Number.Reading
import DomainRules.Proofs.Value.Quoted
import DomainRules.Yaml.Quoted

namespace DomainRules.Yaml

open Text

/-- The characters that one letter behind a backslash stands for. -/
def shortEscapes : List (Char × Char) :=
  [('0', '\x00'), ('a', '\x07'), ('b', '\x08'), ('t', '\t'), ('\t', '\t'), ('n', '\n'),
    ('v', '\x0b'), ('f', '\x0c'), ('r', '\r'), ('e', '\x1b'), (' ', ' '), ('"', '"'), ('/', '/'),
    ('\\', '\\'), ('N', '\u0085'), ('_', '\u00a0'), ('L', '\u2028'), ('P', '\u2029')]

def codeEscapes : List (Char × Nat) := [('x', 2), ('u', 4), ('U', 8)]

inductive Place where
  | text
  | escape
  /-- Within a code point: so many digits are missing, and the others have this value. -/
  | code (missing value : Nat)

def keep (c : Char) (read? : Option (List Char × List Char)) : Option (List Char × List Char) :=
  read?.map fun read => (c :: read.1, read.2)

/-- The text up to the closing quote, and what follows it. A scalar that goes on in the next line is
not read. -/
def scalar? : Place → List Char → Option (List Char × List Char)
  | _, [] => none
  | .text, c :: rest =>
    if c = '"' then some ([], rest)
    else if c = '\\' then scalar? .escape rest
    else if c = '\t' ∨ 0x20 ≤ c.toNat then keep c (scalar? .text rest)
    else none
  | .escape, letter :: rest =>
    match shortEscapes.lookup letter, codeEscapes.lookup letter with
    | some c, _ => keep c (scalar? .text rest)
    | none, some digits => scalar? (.code digits 0) rest
    | none, none => none
  | .code missing value, c :: rest =>
    match Number.digitOf? 16 c with
    | none => none
    | some digit =>
      let code := 16 * value + digit
      if 1 < missing then scalar? (.code (missing - 1) code) rest
      else if code.isValidChar then keep (Char.ofNat code) (scalar? .text rest)
      else none

theorem digitOf?_hexDigit : ∀ n < 16, Number.digitOf? 16 (hexDigit n) = some n := by decide

theorem hexDigit_ne_feed : ∀ n < 16, hexDigit n ≠ '\n' := by decide

theorem escape_ofNat_of_control : ∀ n < 0x20,
    ((shortEscapes.map Prod.fst).any fun letter => escape (Char.ofNat n) = ['\\', letter] ∧
      shortEscapes.lookup letter = some (Char.ofNat n)) = true ∨
    escape (Char.ofNat n) = ['\\', 'x', hexDigit (n / 16), hexDigit (n % 16)] := by
  decide

section Escape

variable {c : Char}

theorem escape_cases (c : Char) :
    (escape c = [c] ∧ c ≠ '"' ∧ c ≠ '\\' ∧ 0x20 ≤ c.toNat) ∨
    (∃ letter, escape c = ['\\', letter] ∧ shortEscapes.lookup letter = some c) ∨
    (c.toNat < 0x20 ∧ escape c = ['\\', 'x', hexDigit (c.toNat / 16), hexDigit (c.toNat % 16)]) := by
  -- There are few control characters, so these are looked at one by one.
  by_cases hcontrol : c.toNat < 0x20
  · have hc := escape_ofNat_of_control c.toNat hcontrol
    rw [Char.ofNat_toNat] at hc
    rcases hc with hc | hc
    · obtain ⟨letter, -, hletter⟩ := List.any_eq_true.mp hc
      exact .inr (.inl ⟨letter, of_decide_eq_true hletter⟩)
    · exact .inr (.inr ⟨hcontrol, hc⟩)
  · have hplain : ∀ n < 0x20, c.toNat ≠ n := by
      intro n hn
      omega
    by_cases hquote : c = '"'
    · rw [hquote]
      exact .inr (.inl ⟨'"', by decide, by decide⟩)
    by_cases hslash : c = '\\'
    · rw [hslash]
      exact .inr (.inl ⟨'\\', by decide, by decide⟩)
    · have hprint : 0x20 ≤ c.toNat := Nat.not_lt.mp hcontrol
      have hquoted : quoteChar c = [c] := quoteChar_of_printable hquote hslash hprint
      refine .inl ⟨?_, hquote, hslash, hprint⟩
      unfold escape
      dsimp only
      rw [if_neg (hplain 0x00 (by decide)), if_neg (hplain 0x07 (by decide)),
        if_neg (hplain 0x0B (by decide)), if_neg (hplain 0x1B (by decide)), hquoted]
      split
      · rename_i hlong
        cases hlong
      · rfl

theorem scalar?_escape (c : Char) (rest : List Char) :
    scalar? .text (escape c ++ rest) = keep c (scalar? .text rest) := by
  rcases escape_cases c with ⟨he, hquote, hslash, hprint⟩ | ⟨letter, he, hletter⟩ | ⟨hc, he⟩
  · rw [he, List.singleton_append, scalar?, if_neg hquote, if_neg hslash, if_pos (.inr hprint)]
  · rw [he, List.cons_append, List.singleton_append, scalar?, if_neg (by decide), if_pos rfl,
      scalar?, hletter]
  · have hvalue : 16 * (c.toNat / 16) + c.toNat % 16 = c.toNat := Nat.div_add_mod c.toNat 16
    have hhigh := digitOf?_hexDigit (c.toNat / 16) (by omega)
    have hlow := digitOf?_hexDigit (c.toNat % 16) (Nat.mod_lt _ (by decide))
    have hx : codeEscapes.lookup 'x' = some 2 := rfl
    have hnone : shortEscapes.lookup 'x' = none := rfl
    have hvalid : c.toNat.isValidChar := .inl (by omega)
    rw [he]
    simp only [List.cons_append, List.nil_append]
    rw [scalar?, if_neg (by decide), if_pos rfl, scalar?, hnone, hx]
    dsimp only
    rw [scalar?, hhigh]
    dsimp only
    rw [if_pos (by decide), scalar?, hlow]
    dsimp only
    rw [if_neg (by decide), Nat.mul_zero, Nat.zero_add, hvalue, if_pos hvalid, Char.ofNat_toNat]

theorem feed_notMem_escape (h : c ≠ '\n') : '\n' ∉ escape c := by
  rcases escape_cases c with ⟨he, -⟩ | ⟨letter, he, hletter⟩ | ⟨hc, he⟩
  · rw [he, List.mem_singleton]
    exact Ne.symm h
  · have hne : letter ≠ '\n' := by
      rintro rfl
      cases hletter
    rw [he]
    simpa using Ne.symm hne
  · have hhigh := hexDigit_ne_feed (c.toNat / 16) (by omega)
    have hlow := hexDigit_ne_feed (c.toNat % 16) (Nat.mod_lt _ (by decide))
    rw [he]
    simp [Ne.symm hhigh, Ne.symm hlow]

end Escape

section Text

variable {s : List Char}

theorem quotedBody_of_notMem (h : '\n' ∉ s) (isLong : Bool) (indent : List Char) :
    quotedBody isLong indent false s = s.flatMap escape := by
  induction s with
  | nil => rfl
  | cons c rest ih =>
    obtain ⟨hc, hrest⟩ := not_or.mp (mt List.mem_cons.mpr h)
    have hhead : rest.head? ≠ some '\n' := by
      intro hhead
      exact hrest (List.mem_of_mem_head? hhead)
    rw [quotedBody, ih hrest, List.flatMap_cons]
    simp [Ne.symm hc, hhead]

theorem scalar?_flatMap_escape (s rest : List Char) :
    scalar? .text (s.flatMap escape ++ '"' :: rest) = some (s, rest) := by
  induction s with
  | nil => rfl
  | cons c s ih =>
    rw [List.flatMap_cons, List.append_assoc, scalar?_escape, ih]
    rfl

end Text

theorem quoted_of_notMem {s : List Char} (h : '\n' ∉ s) (indent : List Char) :
    quoted indent s = '"' :: (s.flatMap escape ++ ['"']) := by
  rw [quoted, quotedBody_of_notMem h]

theorem feed_notMem_quoted {s : List Char} (h : '\n' ∉ s) (indent : List Char) :
    '\n' ∉ quoted indent s := by
  have hbody : '\n' ∉ s.flatMap escape := by
    intro hmem
    obtain ⟨c, hc, hfeed⟩ := List.mem_flatMap.mp hmem
    exact feed_notMem_escape (fun he => h (he ▸ hc)) hfeed
  rw [quoted_of_notMem h]
  simp [hbody]

end DomainRules.Yaml
