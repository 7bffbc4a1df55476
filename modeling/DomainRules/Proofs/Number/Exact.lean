import DomainRules.Number.Basic
import Mathlib.Data.Nat.Log
import Mathlib.Tactic.Ring

namespace DomainRules.Number

theorem twoTo_pos (n : Nat) : 0 < twoTo n := Nat.two_pow_pos n

theorem twoTo_add (m n : Nat) : twoTo (m + n) = twoTo m * twoTo n := Nat.pow_add 2 m n

theorem twoTo_lt_twoTo {m n : Nat} (h : m < n) : twoTo m < twoTo n :=
  Nat.pow_lt_pow_right Nat.one_lt_two h

theorem one_pos : 0 < one := twoTo_pos 1074

theorem log2_mul_twoTo {k : Nat} (h : k ≠ 0) (e : Nat) : (k * twoTo e).log2 = k.log2 + e := by
  have hpos := twoTo_pos e
  have hne : k * twoTo e ≠ 0 := Nat.mul_ne_zero h hpos.ne'
  apply (Nat.log2_eq_iff hne).mpr
  constructor
  · calc 2 ^ (k.log2 + e) = 2 ^ k.log2 * twoTo e := Nat.pow_add 2 _ e
      _ ≤ k * twoTo e := Nat.mul_le_mul_right _ (Nat.log2_self_le h)
  · calc k * twoTo e < 2 ^ (k.log2 + 1) * twoTo e :=
        Nat.mul_lt_mul_of_pos_right Nat.lt_log2_self hpos
      _ = 2 ^ (k.log2 + e + 1) := by
        rw [twoTo, Nat.pow_eq, ← Nat.pow_add]
        congr 1
        omega

theorem divHalfEven_mul (n : Nat) {d : Nat} (h : 0 < d) : divHalfEven (n * d) d = n := by
  unfold divHalfEven
  rw [Nat.mul_mod_left, Nat.mul_div_cancel n h]
  simp [h]

/-- A number that is not larger than a significand is not rounded, whatever its exponent. -/
theorem roundQuotient_mul_twoTo {k : Nat} (h : k < 2 ^ 53) (e : Nat) :
    roundQuotient (k * twoTo e) 1 = k * twoTo e := by
  unfold roundQuotient
  rw [Nat.div_one]
  simp only [Nat.one_mul]
  generalize hs : (k * twoTo e).log2 + 1 - precision = s
  -- The step of the rounding divides the power of two.
  have hstep : s ≤ e := by
    by_cases hk : k = 0
    · rw [hk, Nat.zero_mul] at hs
      exact hs ▸ Nat.zero_le e
    · have hlog : k.log2 < 53 := (Nat.log2_lt hk).mpr h
      rw [log2_mul_twoTo hk, precision] at hs
      omega
  have hsplit : k * twoTo e = k * twoTo (e - s) * twoTo s := by
    rw [Nat.mul_assoc, ← twoTo_add, Nat.sub_add_cancel hstep]
  rw [hsplit, divHalfEven_mul _ (twoTo_pos s)]

theorem ofInt_eq {z : Int} (h : z.natAbs < 2 ^ 53) : ofInt z = finite (z * one) := by
  have habs : (z * (one : Int)).natAbs = z.natAbs * one := by
    rw [Int.natAbs_mul, Int.natAbs_natCast]
  have hround : roundQuotient (z.natAbs * one) 1 = z.natAbs * one := roundQuotient_mul_twoTo h 1074
  have hlimit : twoTo 53 < overflow := twoTo_lt_twoTo (by decide)
  have hsmall : z.natAbs < overflow := Nat.lt_trans h hlimit
  have hfinite : z.natAbs * one < overflow * one := Nat.mul_lt_mul_of_pos_right hsmall one_pos
  rw [ofInt, ofUnits, habs, hround, ofMagnitude, if_neg (Nat.not_le.mpr hfinite), ← habs]
  congr 1
  by_cases hneg : z * (one : Int) < 0
  · rw [if_pos (decide_eq_true hneg)]
    omega
  · rw [if_neg (by rwa [decide_eq_true_eq])]
    omega

/-- A significand of full length, and an exponent that a finite number may have. -/
structure Normal (m e : Nat) : Prop where
  least : 0x10000000000000 ≤ m
  most : m < 2 ^ 53
  range : e < 2046

/-- The bit pattern of such a number. The first bit of the significand is not written. -/
def normalBits (m e : Nat) : Nat := (e + 1) * twoTo 52 + (m - twoTo 52)

theorem twoTo_significand : twoTo 52 = 0x10000000000000 := rfl

section

variable {m e : Nat}

theorem Normal.magnitudeBits_eq (h : Normal m e) : magnitudeBits (m * twoTo e) = normalBits m e := by
  have hleast := h.least
  have hm : m ≠ 0 := by omega
  have hlog : m.log2 = 52 := (Nat.log2_eq_iff hm).mpr ⟨hleast, h.most⟩
  have hlarge : ¬ m * twoTo e < 0x10000000000000 :=
    Nat.not_lt.mpr (hleast.trans (Nat.le_mul_of_pos_right m (twoTo_pos e)))
  unfold magnitudeBits
  rw [twoTo_significand, if_neg hlarge, log2_mul_twoTo hm, hlog, Nat.add_sub_cancel_left]
  dsimp only
  rw [Nat.mul_div_cancel m (twoTo_pos e), normalBits, twoTo_significand]

theorem Normal.ofBits_eq (h : Normal m e) :
    ofBits 11 52 (normalBits m e) = finite ((m * twoTo e : Nat) : Int) := by
  have hleast := h.least
  have hmost := h.most
  have hrange := h.range
  generalize hbits : normalBits m e = bits
  rw [normalBits, twoTo_significand] at hbits
  -- The three parts of the pattern, with the widths as numbers.
  have hfraction : bits % 0x10000000000000 = m - 0x10000000000000 := by omega
  have hexponent : bits / 0x10000000000000 % 0x800 = e + 1 := by omega
  have hsign : bits / 0x8000000000000000 % 2 = 0 := by omega
  have hsignificand : 0x10000000000000 + (m - 0x10000000000000) = m := by omega
  have hexponents : twoTo 11 = 0x800 := rfl
  have hsigned : twoTo (52 + 11) = 0x8000000000000000 := rfl
  have hunit : twoTo (1076 - twoTo (11 - 1) - 52) = 1 := rfl
  unfold ofBits
  simp only [twoTo_significand, hexponents, hsigned, hunit, hfraction, hexponent, hsign,
    hsignificand, Nat.add_sub_cancel]
  rw [if_neg (by omega), if_neg (by omega)]
  simp

end

/-- A number of a clock: a natural number of at most 53 bits. -/
def IsSafe (n : Number) : Prop := ∃ k : Nat, k < 2 ^ 53 ∧ n = ofNat k

theorem ofNat_eq {k : Nat} (h : k < 2 ^ 53) : ofNat k = finite (k * one) := ofInt_eq h

theorem bits_finite_natCast (units : Nat) : bits (finite units) = magnitudeBits units := by
  have hsign : ¬ (units : Int) < 0 := by omega
  rw [bits, if_neg hsign, Nat.zero_add, Int.natAbs_natCast]

theorem exists_normal {k : Nat} (hpos : k ≠ 0) (h : k < 2 ^ 53) :
    ∃ m e, Normal m e ∧ k * one = m * twoTo e := by
  have hlog : k.log2 < 53 := (Nat.log2_lt hpos).mpr h
  have hleast : 2 ^ k.log2 ≤ k := Nat.log2_self_le hpos
  have hmost : k < 2 ^ (k.log2 + 1) := Nat.lt_log2_self
  -- The digits are moved to the front of the significand.
  refine ⟨k * twoTo (52 - k.log2), 1022 + k.log2, ⟨?_, ?_, by omega⟩, ?_⟩
  · calc 0x10000000000000 = twoTo (k.log2 + (52 - k.log2)) := by
          rw [Nat.add_sub_of_le (by omega), twoTo_significand]
      _ = 2 ^ k.log2 * twoTo (52 - k.log2) := twoTo_add _ _
      _ ≤ k * twoTo (52 - k.log2) := Nat.mul_le_mul_right _ hleast
  · calc k * twoTo (52 - k.log2) < 2 ^ (k.log2 + 1) * twoTo (52 - k.log2) :=
          Nat.mul_lt_mul_of_pos_right hmost (twoTo_pos _)
      _ = twoTo (k.log2 + 1 + (52 - k.log2)) := (twoTo_add _ _).symm
      _ = 2 ^ 53 := congrArg twoTo (by omega)
  · calc k * one = k * twoTo (52 - k.log2 + (1022 + k.log2)) :=
          congrArg (k * twoTo ·) (by omega)
      _ = k * twoTo (52 - k.log2) * twoTo (1022 + k.log2) := by rw [twoTo_add, Nat.mul_assoc]

theorem exists_bits_ofNat {k : Nat} (hpos : k ≠ 0) (h : k < 2 ^ 53) :
    ∃ m e, Normal m e ∧ ofNat k = finite ((m * twoTo e : Nat) : Int) ∧
      bits (ofNat k) = normalBits m e := by
  obtain ⟨m, e, hnormal, hunits⟩ := exists_normal hpos h
  have hk : ofNat k = finite ((m * twoTo e : Nat) : Int) := by
    rw [ofNat_eq h, ← hunits, Int.natCast_mul]
  refine ⟨m, e, hnormal, hk, ?_⟩
  rw [hk, bits_finite_natCast, hnormal.magnitudeBits_eq]

theorem ofBits_bits_ofNat {k : Nat} (hpos : k ≠ 0) (h : k < 2 ^ 53) :
    ofBits 11 52 (bits (ofNat k)) = ofNat k := by
  obtain ⟨m, e, hnormal, hk, hbits⟩ := exists_bits_ofNat hpos h
  rw [hbits, hk]
  exact hnormal.ofBits_eq

theorem bits_ofNat_lt {k : Nat} (hpos : k ≠ 0) (h : k < 2 ^ 53) : bits (ofNat k) < 2 ^ 63 := by
  obtain ⟨m, e, hnormal, -, hbits⟩ := exists_bits_ofNat hpos h
  have hmost := hnormal.most
  have hrange := hnormal.range
  rw [hbits, normalBits, twoTo_significand]
  omega

theorem finite_lt_finite (a b : Int) : (finite a).lt (finite b) = true ↔ a < b :=
  decide_eq_true_iff

theorem lt_of_lt_of_le {n : Number} {a b : Int} (h : n.lt (finite a)) (hle : a ≤ b) :
    n.lt (finite b) := by
  cases n with
  | nan => cases h
  | infinite negative => exact h
  | finite units =>
    rw [finite_lt_finite] at h ⊢
    omega

end DomainRules.Number
