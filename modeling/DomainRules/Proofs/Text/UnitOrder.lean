import DomainRules.Proofs.Text.Utf8
import DomainRules.Text.Units

namespace DomainRules.Text

theorem toNat_toUInt16 {n : Nat} (h : n < 0x10000) : n.toUInt16.toNat = n := by
  rw [Nat.toUInt16_eq, UInt16.toNat_ofNat', Nat.mod_eq_of_lt h]

theorem isLead_iff (u : UInt16) : isLead u = true ↔ 0xD800 ≤ u.toNat ∧ u.toNat < 0xDC00 := by
  rw [isLead, Bool.and_eq_true, decide_eq_true_iff, decide_eq_true_iff]
  exact Iff.rfl

theorem isTrail_iff (u : UInt16) : isTrail u = true ↔ 0xDC00 ≤ u.toNat ∧ u.toNat < 0xE000 := by
  rw [isTrail, Bool.and_eq_true, decide_eq_true_iff, decide_eq_true_iff]
  exact Iff.rfl

theorem charOfUnit_toUInt16 {c : Char} (h : c.toNat < 0x10000) :
    charOfUnit c.toNat.toUInt16 = c := by
  have hunit : c.toNat.toUInt16.toNat = c.toNat := toNat_toUInt16 h
  have hvalid := toNat_lt_or_lt c
  have hlead : ¬ isLead c.toNat.toUInt16 = true := by
    rw [isLead_iff, hunit]
    omega
  have htrail : ¬ isTrail c.toNat.toUInt16 = true := by
    rw [isTrail_iff, hunit]
    omega
  have hneither : ¬ (isLead c.toNat.toUInt16 || isTrail c.toNat.toUInt16) = true := by
    rw [Bool.or_eq_true]
    exact not_or.mpr ⟨hlead, htrail⟩
  rw [charOfUnit, if_neg hneither, hunit, Char.ofNat_toNat]

theorem ofUnits_cons_of_not_lead {u : UInt16} (h : ¬ isLead u = true) (us : List UInt16) :
    ofUnits (u :: us) = charOfUnit u :: ofUnits us := by
  cases us with
  | nil => rfl
  | cons v rest =>
    have hpair : ¬ (isLead u && isTrail v) = true := by
      rw [Bool.and_eq_true]
      exact fun hboth => h hboth.1
    rw [ofUnits, if_neg hpair]

theorem ofUnits_cons_cons_of_pair {u v : UInt16} (hlead : isLead u = true) (htrail : isTrail v = true)
    (us : List UInt16) : ofUnits (u :: v :: us) = Char.ofNat (pairCode u v) :: ofUnits us := by
  have hpair : (isLead u && isTrail v) = true := by
    rw [Bool.and_eq_true]
    exact ⟨hlead, htrail⟩
  rw [ofUnits, if_pos hpair]

/-- The two halves of a pair hold ten bits each of what exceeds the first plane. -/
theorem toNat_halves (c : Char) :
    (0xD800 + (c.toNat - 0x10000) / 0x400).toUInt16.toNat =
        0xD800 + (c.toNat - 0x10000) / 0x400 ∧
      (0xDC00 + (c.toNat - 0x10000) % 0x400).toUInt16.toNat =
        0xDC00 + (c.toNat - 0x10000) % 0x400 := by
  have hvalid := toNat_lt_or_lt c
  exact ⟨toNat_toUInt16 (by omega), toNat_toUInt16 (by omega)⟩

theorem ofUnits_append (c : Char) (us : List UInt16) :
    ofUnits (unitsOfChar c ++ us) = c :: ofUnits us := by
  have hvalid := toNat_lt_or_lt c
  unfold unitsOfChar
  dsimp only
  split
  · rename_i hsmall
    have hlead : ¬ isLead c.toNat.toUInt16 = true := by
      rw [isLead_iff, toNat_toUInt16 hsmall]
      omega
    rw [List.singleton_append, ofUnits_cons_of_not_lead hlead, charOfUnit_toUInt16 hsmall]
  · rename_i hlarge
    obtain ⟨hfirst, hsecond⟩ := toNat_halves c
    have hlead : isLead (0xD800 + (c.toNat - 0x10000) / 0x400).toUInt16 = true := by
      rw [isLead_iff, hfirst]
      omega
    have htrail : isTrail (0xDC00 + (c.toNat - 0x10000) % 0x400).toUInt16 = true := by
      rw [isTrail_iff, hsecond]
      omega
    have hcode : pairCode (0xD800 + (c.toNat - 0x10000) / 0x400).toUInt16
        (0xDC00 + (c.toNat - 0x10000) % 0x400).toUInt16 = c.toNat := by
      unfold pairCode
      simp only [hfirst, hsecond]
      omega
    rw [List.cons_append, List.singleton_append, ofUnits_cons_cons_of_pair hlead htrail, hcode,
      Char.ofNat_toNat]

theorem ofUnits_units (s : List Char) : ofUnits (units s) = s := by
  induction s with
  | nil => rfl
  | cons c s ih =>
    rw [units, List.flatMap_cons, ofUnits_append]
    exact congrArg (c :: ·) ih

theorem units_injective {s t : List Char} (h : units s = units t) : s = t := by
  rw [← ofUnits_units s, h, ofUnits_units]

theorem unitsLt_iff (us vs : List UInt16) : unitsLt us vs = true ↔ us < vs := by
  induction us generalizing vs with
  | nil => cases vs <;> simp [unitsLt]
  | cons u us ih =>
    cases vs with
    | nil => simp [unitsLt]
    | cons v vs =>
      rw [unitsLt, Bool.or_eq_true, Bool.and_eq_true, ih, beq_iff_eq, decide_eq_true_iff,
        List.cons_lt_cons_iff]

section

variable {a b c : String}

theorem unitOrder_iff : unitOrder a b = true ↔ units a.toList < units b.toList := unitsLt_iff _ _

theorem unitOrder_trans (hab : unitOrder a b = true) (hbc : unitOrder b c = true) :
    unitOrder a c = true := by
  rw [unitOrder_iff] at hab hbc ⊢
  exact List.lt_trans hab hbc

theorem ne_of_unitOrder (h : unitOrder a b = true) : a ≠ b := by
  rintro rfl
  exact List.lt_irrefl _ (unitOrder_iff.mp h)

theorem unitOrder_of_ne (hne : a ≠ b) (h : ¬ unitOrder a b = true) : unitOrder b a = true := by
  rw [unitOrder_iff] at h ⊢
  apply Decidable.byContradiction
  intro hlater
  have hunits : units a.toList = units b.toList := List.le_antisymm hlater h
  exact hne (String.toList_injective (units_injective hunits))

end

end DomainRules.Text
