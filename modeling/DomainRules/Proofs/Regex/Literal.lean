import DomainRules.Proofs.Text.UnitOrder
import DomainRules.Wildcard
import Mathlib.Data.List.Forall2

namespace DomainRules.Regex

open Text

def syntaxSigns : List Char :=
  ['^', '$', '\\', '.', '*', '+', '?', '(', ')', '[', ']', '\x7b', '\x7d', '|']

/-- The text as an expression: such signs get a backslash. -/
def escaped (s : List Char) : List Char :=
  s.flatMap fun c => if c ∈ syntaxSigns then ['\\', c] else [c]

/-- The tokens of a pattern, one behind the other. -/
inductive Spells : List UInt16 → List Token → Prop where
  | nil : Spells [] []
  | cons {s rest : List UInt16} {token : Token} {tokens : List Token}
      (hr : Token.read s = some (token, rest)) (hl : rest.length < s.length)
      (h : Spells rest tokens) : Spells s (token :: tokens)

theorem Spells.readTokens_eq {s : List UInt16} {tokens : List Token} (h : Spells s tokens)
    {fuel : Nat} (hf : s.length ≤ fuel) : readTokens fuel s = some tokens := by
  induction h generalizing fuel with
  | nil => rw [readTokens]
  | @cons s rest token tokens hr hl _ ih =>
    -- Every token takes at least one unit, so the fuel lasts as long as the pattern.
    obtain ⟨u, more, rfl⟩ := List.exists_cons_of_length_pos (Nat.zero_lt_of_lt hl)
    obtain ⟨fuel, rfl⟩ := Nat.exists_eq_succ_of_ne_zero (Nat.ne_zero_of_lt hf)
    have hrest : readTokens fuel rest = some tokens := ih (by omega)
    rw [readTokens, hr]
    · simp only [Option.bind_eq_bind, Option.bind_some, hrest]
    · exact List.cons_ne_nil u more

theorem read_of_notMem {u : UInt16} (h : sign u ∉ syntaxSigns) (rest : List UInt16) :
    Token.read (u :: rest) = some (.atom (unit u), rest) := by
  rw [Token.read]
  split
  case h_15 => rfl
  all_goals
    rename_i hsign
    exact absurd (by rw [hsign]; decide) h

theorem read_escaped {c : Char} (h : c ∈ syntaxSigns) (rest : List UInt16) :
    Token.read (0x5C :: c.toNat.toUInt16 :: rest) = some (.atom (unit c.toNat.toUInt16), rest) := by
  simp only [syntaxSigns, List.mem_cons, List.not_mem_nil, or_false] at h
  rcases h with rfl | rfl | rfl | rfl | rfl | rfl | rfl | rfl | rfl | rfl | rfl | rfl | rfl | rfl
  all_goals rfl

theorem sign_eq_of_mem_unitsOfChar {u : UInt16} {c : Char} (hu : u ∈ unitsOfChar c)
    (h : u.toNat < 0x80) : sign u = c := by
  unfold unitsOfChar at hu
  dsimp only at hu
  split at hu
  · rename_i hsmall
    have hnat : u.toNat = c.toNat := by
      rw [List.mem_singleton.mp hu]
      exact toNat_toUInt16 hsmall
    rw [sign, if_pos (UInt16.lt_iff_toNat_lt.mpr h), hnat, Char.ofNat_toNat]
  · rename_i hlarge
    obtain ⟨hfirst, hsecond⟩ := toNat_halves c
    rcases List.mem_cons.mp hu with rfl | hu
    · omega
    · rw [List.mem_singleton.mp hu] at h
      omega

theorem toNat_lt_of_sign_mem {u : UInt16} (h : sign u ∈ syntaxSigns) : u.toNat < 0x80 := by
  by_contra hlarge
  rw [sign, if_neg fun hlt => hlarge (UInt16.lt_iff_toNat_lt.mp hlt)] at h
  exact absurd h (by decide)

theorem Spells.append {us rest : List UInt16} {tokens : List Token}
    (hu : ∀ u ∈ us, sign u ∉ syntaxSigns) (h : Spells rest tokens) :
    Spells (us ++ rest) (us.map (fun u => .atom (unit u)) ++ tokens) := by
  induction us with
  | nil => exact h
  | cons u us ih =>
    exact .cons (read_of_notMem (hu u List.mem_cons_self) _) (by simp)
      (ih fun v hv => hu v (List.mem_cons_of_mem u hv))

theorem Spells.escaped_append (s : List Char) {rest : List UInt16} {tokens : List Token}
    (h : Spells rest tokens) :
    Spells (units (escaped s) ++ rest) ((units s).map (fun u => .atom (unit u)) ++ tokens) := by
  induction s with
  | nil => exact h
  | cons c s ih =>
    rw [escaped, List.flatMap_cons, ← escaped]
    -- A sign is one unit and one token with its backslash. Any other character may be two units,
    -- and each of them is a token.
    by_cases hc : c ∈ syntaxSigns
    · have hascii : syntaxSigns.all (·.toNat < 0x10000) = true := by decide
      have hunit : unitsOfChar c = [c.toNat.toUInt16] :=
        if_pos (of_decide_eq_true (List.all_eq_true.mp hascii c hc))
      have hpair : units (['\\', c] ++ escaped s) =
          0x5C :: c.toNat.toUInt16 :: units (escaped s) := by
        rw [units, List.flatMap_append, List.flatMap_cons, List.flatMap_singleton, hunit]
        rfl
      have hunits : units (c :: s) = c.toNat.toUInt16 :: units s := by
        rw [units, List.flatMap_cons, hunit]
        rfl
      rw [if_pos hc, hpair, hunits]
      have hshorter : (units (escaped s) ++ rest).length <
          (0x5C :: c.toNat.toUInt16 :: (units (escaped s) ++ rest)).length := by
        rw [List.length_cons, List.length_cons]
        omega
      exact .cons (read_escaped hc _) hshorter ih
    · have hplain : ∀ u ∈ unitsOfChar c, sign u ∉ syntaxSigns := by
        intro u hu hmem
        exact hc (sign_eq_of_mem_unitsOfChar hu (toNat_lt_of_sign_mem hmem) ▸ hmem)
      have hfront : units ([c] ++ escaped s) = unitsOfChar c ++ units (escaped s) := rfl
      have hunits : units (c :: s) = unitsOfChar c ++ units s := rfl
      rw [if_neg hc, hfront, hunits, List.map_append, List.append_assoc, List.append_assoc]
      exact ih.append hplain

def Token.Makes (token : Token) (part : Regex) : Prop := token = .atom part ∨ token = .edge part

/-- Tokens without parentheses, bars and quantifiers make one sequence. -/
theorem assemble_eq_sequence {tokens : List Token} {parts : List Regex}
    (h : List.Forall₂ Token.Makes tokens parts) :
    assemble tokens {} [] = some (sequence parts) := by
  -- By the tokens, with any parts before them, which are gathered in reverse.
  have hlevel : ∀ level : Level, level.branches = [] →
      assemble tokens level [] = some (sequence (level.items.reverse ++ parts)) := by
    induction h with
    | nil =>
      intro level hb
      rw [assemble, Level.body, hb, List.append_nil]
      rfl
    | @cons token part tokens parts ht _ ih =>
      intro level hb
      rcases ht with rfl | rfl
      · rw [assemble, ih (level.push part true) hb]
        simp [Level.push]
      · rw [assemble, ih (level.push part false) hb]
        simp [Level.push]
  exact hlevel {} rfl

section Sequence

variable {parts : List Regex}

theorem wildcard_sequence (parts : List Regex) :
    (sequence parts).wildcard = parts.flatMap wildcard := by
  induction parts with
  | nil => rfl
  | cons part parts ih => rw [sequence, wildcard, ih, List.flatMap_cons]

theorem isLossy_sequence (parts : List Regex) : (sequence parts).isLossy = parts.any isLossy := by
  induction parts with
  | nil => rfl
  | cons part parts ih => rw [sequence, isLossy, ih, List.any_cons]

theorem isScoped_sequence (h : ∀ part ∈ parts, part.groupNames = [] ∧ part.namesDistinct = true ∧
      ∀ count names, part.referencesExist count names = true) :
    (sequence parts).isScoped = true := by
  have hall : (sequence parts).groupNames = [] ∧ (sequence parts).namesDistinct = true ∧
      ∀ count names, (sequence parts).referencesExist count names = true := by
    induction parts with
    | nil => exact ⟨rfl, rfl, fun _ _ => rfl⟩
    | cons part parts ih =>
      obtain ⟨hnames, hdistinct, hexist⟩ := h part List.mem_cons_self
      obtain ⟨hnames', hdistinct', hexist'⟩ :=
        ih fun other ho => h other (List.mem_cons_of_mem part ho)
      refine ⟨?_, ?_, ?_⟩
      · rw [sequence, groupNames, hnames, hnames', List.append_nil]
      · rw [sequence, namesDistinct, hnames, hdistinct, hdistinct']
        rfl
      · intro count names
        rw [sequence, referencesExist, hexist, hexist']
        rfl
  rw [isScoped, hall.2.1, hall.2.2]
  rfl

end Sequence

theorem ofUnits?_of_spells {s : List UInt16} {tokens : List Token} {parts : List Regex}
    (hs : Spells s tokens) (ht : List.Forall₂ Token.Makes tokens parts)
    (hscoped : (sequence parts).isScoped = true) : ofUnits? s = some (sequence parts) := by
  rw [ofUnits?, hs.readTokens_eq (Nat.le_refl _), Option.bind_eq_bind, Option.bind_some,
    assemble_eq_sequence ht, Option.bind_eq_bind, Option.bind_some, if_pos hscoped]

def literals (s : List Char) : List Regex := (units s).map unit

theorem forall₂_literals (s : List Char) :
    List.Forall₂ Token.Makes ((units s).map fun u => .atom (unit u)) (literals s) := by
  rw [literals, List.forall₂_map_left_iff, List.forall₂_map_right_iff]
  exact List.forall₂_same.mpr fun u _ => .inl rfl

theorem isScoped_literals {parts : List Regex} {s : List Char}
    (h : ∀ part ∈ parts, part ∈ literals s ∨ part = start ∨ part = finish) :
    (sequence parts).isScoped = true := by
  apply isScoped_sequence
  intro part hp
  rcases h part hp with hl | rfl | rfl
  · obtain ⟨u, -, rfl⟩ := List.mem_map.mp hl
    exact ⟨rfl, rfl, fun _ _ => rfl⟩
  · exact ⟨rfl, rfl, fun _ _ => rfl⟩
  · exact ⟨rfl, rfl, fun _ _ => rfl⟩

theorem ofUnits?_escaped (s : List Char) :
    ofUnits? (units (escaped s)) = some (sequence (literals s)) := by
  have hspells := Spells.escaped_append s .nil
  rw [List.append_nil, List.append_nil] at hspells
  exact ofUnits?_of_spells hspells (forall₂_literals s) (isScoped_literals fun part hp => .inl hp)

theorem ofUnits?_anchored (s : List Char) :
    ofUnits? (units ('^' :: escaped s ++ ['$'])) =
      some (sequence (start :: literals s ++ [finish])) := by
  have hfinish : Spells (units ['$']) [.edge finish] := .cons rfl (by decide) .nil
  have hspells : Spells (units ('^' :: escaped s ++ ['$']))
      (.edge start :: ((units s).map (fun u => .atom (unit u)) ++ [.edge finish])) := by
    have hunits : units ('^' :: escaped s ++ ['$']) =
        0x5E :: (units (escaped s) ++ units ['$']) := by
      rw [units, List.cons_append, List.flatMap_cons, List.flatMap_append]
      rfl
    rw [hunits]
    exact .cons rfl (by simp) (Spells.escaped_append s hfinish)
  apply ofUnits?_of_spells hspells
  · apply List.Forall₂.cons (.inr rfl)
    exact List.rel_append (forall₂_literals s) (.cons (.inr rfl) .nil)
  · apply isScoped_literals (s := s)
    intro part hp
    rcases List.mem_append.mp hp with hp | hp
    · rcases List.mem_cons.mp hp with rfl | hp
      · exact .inr (.inl rfl)
      · exact .inl hp
    · exact .inr (.inr (List.mem_singleton.mp hp))

end DomainRules.Regex
