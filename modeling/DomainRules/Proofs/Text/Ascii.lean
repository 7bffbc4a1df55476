import DomainRules.Proofs.Text.UnitOrder
import DomainRules.Text.Units

namespace DomainRules.Text

theorem toNat_capital_lt_iff (u : UInt16) : (capital u).toNat < 0x80 ↔ u.toNat < 0x80 := by
  unfold capital
  split
  · rename_i hsmall
    rw [Bool.or_eq_true, Bool.and_eq_true, Bool.and_eq_true, Bool.and_eq_true, decide_eq_true_iff,
      decide_eq_true_iff, decide_eq_true_iff, decide_eq_true_iff] at hsmall
    simp only [UInt16.le_iff_toNat_le, UInt16.reduceToNat] at hsmall
    have hdistance : (0x20 : UInt16).toNat = 0x20 := rfl
    have hle : (0x20 : UInt16) ≤ u := by
      rw [UInt16.le_iff_toNat_le, hdistance]
      omega
    rw [UInt16.toNat_sub_of_le _ _ hle, hdistance]
    omega
  · split
    · rename_i hletter
      rw [hletter]
      decide
    · split
      · rename_i hletter
        rw [Bool.or_eq_true, decide_eq_true_iff, decide_eq_true_iff] at hletter
        rcases hletter with rfl | rfl <;> decide
      · exact Iff.rfl

theorem capital_eq_of_mem_casesOf {u v : UInt16} (h : v ∈ casesOf u) : capital v = capital u :=
  beq_iff_eq.mp (List.mem_filter.mp h).2

theorem toNat_lt_of_mem_casesOf {u v : UInt16} (h : v ∈ casesOf u) (hv : v.toNat < 0x80) :
    u.toNat < 0x80 := by
  rw [← toNat_capital_lt_iff, ← capital_eq_of_mem_casesOf h, toNat_capital_lt_iff]
  exact hv

theorem unitsOfChar_of_lt {c : Char} (h : c.toNat < 0x80) : unitsOfChar c = [c.toNat.toUInt16] :=
  if_pos (Nat.lt_trans h (by decide))

theorem le_toNat_of_mem_unitsOfChar {c : Char} (h : 0x80 ≤ c.toNat) {u : UInt16}
    (hu : u ∈ unitsOfChar c) : 0x80 ≤ u.toNat := by
  unfold unitsOfChar at hu
  dsimp only at hu
  split at hu
  · rename_i hsmall
    rw [List.mem_singleton.mp hu, toNat_toUInt16 hsmall]
    exact h
  · obtain ⟨hlead, htrail⟩ := toNat_halves c
    rcases List.mem_cons.mp hu with rfl | hu
    · rw [hlead]
      omega
    · rw [List.mem_singleton.mp hu, htrail]
      omega

theorem unitsOfChar_ne_nil (c : Char) : unitsOfChar c ≠ [] := by
  unfold unitsOfChar
  dsimp only
  split <;> exact List.cons_ne_nil _ _

/-- A set of units and a set of characters that hold the same signs of ASCII and nothing else. -/
structure AreSameSigns (p : UInt16 → Bool) (q : Char → Bool) : Prop where
  within : ∀ n < 0x80, p n.toUInt16 = q (Char.ofNat n)
  unit : ∀ u, p u = true → u.toNat < 0x80
  char : ∀ c, q c = true → c.toNat < 0x80

variable {p : UInt16 → Bool} {q : Char → Bool}

theorem AreSameSigns.all_unitsOfChar (h : AreSameSigns p q) (c : Char) :
    (unitsOfChar c).all p = q c := by
  by_cases hc : c.toNat < 0x80
  · rw [unitsOfChar_of_lt hc, List.all_cons, List.all_nil, Bool.and_true, h.within _ hc,
      Char.ofNat_toNat]
  · rw [Bool.eq_iff_iff, List.all_eq_true]
    obtain ⟨u, hu⟩ := List.exists_mem_of_ne_nil _ (unitsOfChar_ne_nil c)
    have hbeyond : 0x80 ≤ u.toNat := le_toNat_of_mem_unitsOfChar (Nat.le_of_not_lt hc) hu
    refine iff_of_false ?_ fun hq => hc (h.char c hq)
    intro hall
    exact absurd (h.unit u (hall u hu)) (Nat.not_lt_of_le hbeyond)

theorem AreSameSigns.all_units (h : AreSameSigns p q) (s : List Char) :
    (units s).all p = s.all q := by
  rw [units, List.all_flatMap]
  congr 1
  funext c
  exact h.all_unitsOfChar c

end DomainRules.Text
