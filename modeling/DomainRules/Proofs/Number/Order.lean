import DomainRules.Proofs.Number.Exact
import Mathlib.Tactic.Linarith

namespace DomainRules.Number

/-- The quotient is rounded up if the remainder is more than half of the divisor, and if it is just
that and the quotient is odd. -/
theorem divHalfEven_eq (n d : Nat) :
    divHalfEven n d =
      n / d + if d < 2 * (n % d) ∨ 2 * (n % d) = d ∧ n / d % 2 = 1 then 1 else 0 := by
  unfold divHalfEven
  dsimp only
  split
  · rw [if_neg (by omega), Nat.add_zero]
  · split
    · rw [if_pos (.inl ‹_›)]
    · split
      · rw [if_neg (by omega), Nat.add_zero]
      · rw [if_pos (by omega)]

theorem divHalfEven_mono {m n d : Nat} (h : m ≤ n) : divHalfEven m d ≤ divHalfEven n d := by
  have hquotient : m / d ≤ n / d := Nat.div_le_div_right h
  rw [divHalfEven_eq, divHalfEven_eq]
  by_cases hsame : m / d = n / d
  · -- Then the remainders are in the same order.
    have hremainder : m % d ≤ n % d := by
      have hm := Nat.div_add_mod m d
      have hn := Nat.div_add_mod n d
      rw [hsame] at hm
      omega
    rw [hsame]
    split
    · rw [if_pos (by omega)]
    · exact Nat.add_le_add_left (Nat.zero_le _) _
  · split <;> omega

/-- The distance of the numbers that a natural number is rounded to. -/
def spacing (n : Nat) : Nat := twoTo (n.log2 + 1 - precision)

theorem roundQuotient_one (n : Nat) : roundQuotient n 1 = divHalfEven n (spacing n) * spacing n := by
  unfold roundQuotient
  rw [Nat.div_one]
  simp only [Nat.one_mul]
  rfl

theorem exists_twoTo_log2_eq {m n : Nat} (h : m.log2 ≤ n.log2) :
    ∃ k, twoTo n.log2 = k * spacing m := by
  have hsplit : n.log2 - (m.log2 + 1 - precision) + (m.log2 + 1 - precision) = n.log2 := by
    rw [precision]
    omega
  refine ⟨twoTo (n.log2 - (m.log2 + 1 - precision)), ?_⟩
  rw [spacing, ← twoTo_add, hsplit]

theorem roundQuotient_mono {m n : Nat} (h : m ≤ n) : roundQuotient m 1 ≤ roundQuotient n 1 := by
  rw [roundQuotient_one, roundQuotient_one]
  by_cases hm : m = 0
  · rw [hm]
    exact Nat.zero_le _
  have hn : n ≠ 0 := by omega
  have hlog : m.log2 ≤ n.log2 := by
    apply (Nat.le_log2 hn).mpr
    exact (Nat.log2_self_le hm).trans h
  by_cases hsame : m.log2 = n.log2
  · have hspacing : spacing m = spacing n := by
      rw [spacing, hsame, spacing]
    rw [hspacing]
    exact Nat.mul_le_mul_right _ (divHalfEven_mono h)
  · -- The power of two at the first digit of the larger one stands between the two.
    have hbelow : m ≤ twoTo n.log2 := by
      have hlt : m < 2 ^ (m.log2 + 1) := Nat.lt_log2_self
      have hpow : 2 ^ (m.log2 + 1) ≤ 2 ^ n.log2 := Nat.pow_le_pow_right (by decide) (by omega)
      exact (hlt.trans_le hpow).le
    have habove : twoTo n.log2 ≤ n := Nat.log2_self_le hn
    obtain ⟨i, hi⟩ := exists_twoTo_log2_eq hlog
    obtain ⟨j, hj⟩ := exists_twoTo_log2_eq (Nat.le_refl n.log2)
    have hfirst : divHalfEven m (spacing m) ≤ i := by
      rw [← divHalfEven_mul i (twoTo_pos _)]
      exact divHalfEven_mono (hi ▸ hbelow)
    have hsecond : j ≤ divHalfEven n (spacing n) := by
      rw [← divHalfEven_mul j (twoTo_pos _)]
      exact divHalfEven_mono (hj ▸ habove)
    calc divHalfEven m (spacing m) * spacing m ≤ i * spacing m := Nat.mul_le_mul_right _ hfirst
      _ = j * spacing n := hi.symm.trans hj
      _ ≤ divHalfEven n (spacing n) * spacing n := Nat.mul_le_mul_right _ hsecond

theorem lt_ofMagnitude {n : Number} {a b : Nat} (h : n.lt (ofMagnitude false a)) (hle : a ≤ b) :
    n.lt (ofMagnitude false b) := by
  unfold ofMagnitude at h ⊢
  by_cases hb : overflow * one ≤ b
  · rw [if_pos hb]
    split at h
    · exact h
    · cases n with
      | nan => cases h
      | infinite negative =>
        cases negative with
        | false => cases h
        | true => rfl
      | finite units => rfl
  · rw [if_neg (fun ha => hb (ha.trans hle))] at h
    rw [if_neg hb]
    exact lt_of_lt_of_le h (Int.ofNat_le.mpr hle)

theorem lt_sub_of_le {n : Number} {since earlier later : Nat} (hsince : since ≤ earlier)
    (hle : earlier ≤ later) (h : n.lt ((finite earlier).sub (finite since))) :
    n.lt ((finite later).sub (finite since)) := by
  have hsub : ∀ now : Nat, since ≤ now → (finite now).sub (finite since) =
      ofMagnitude false (roundQuotient (now - since) 1) := by
    intro now hnow
    have hunits : (now : Int) + -(since : Int) = ((now - since : Nat) : Int) := by omega
    rw [sub, neg, add, hunits, ofUnits, Int.natAbs_natCast]
    congr 1
  rw [hsub earlier hsince] at h
  rw [hsub later (hsince.trans hle)]
  exact lt_ofMagnitude h (roundQuotient_mono (Nat.sub_le_sub_right hle since))

theorem ofUnits_mul_one {k : Nat} (h : k < 2 ^ 53) : ofUnits (k * one) = finite (k * one) := by
  have hk := ofNat_eq h
  rw [ofNat, ofInt] at hk
  exact hk

theorem not_lt_ofUnits_of_nonpos {n a : Int} (hn : 0 ≤ n) (ha : a ≤ 0) :
    ¬ (finite n).lt (ofUnits a) := by
  by_cases hzero : a = 0
  · have hunits := ofUnits_mul_one (k := 0) (by decide)
    rw [Int.natCast_zero, Int.zero_mul] at hunits
    rw [hzero, hunits, finite_lt_finite]
    omega
  · have hnegative : a < 0 := by omega
    rw [ofUnits, decide_eq_true hnegative, ofMagnitude]
    split
    · exact Bool.false_ne_true
    · rw [if_pos rfl, finite_lt_finite]
      omega

theorem lt_ofUnits_of_le {n a b : Int} (hn : 0 ≤ n) (hle : a ≤ b) (h : (finite n).lt (ofUnits a)) :
    (finite n).lt (ofUnits b) := by
  have hpos : 0 < a := by
    apply Decidable.byContradiction
    intro hno
    exact not_lt_ofUnits_of_nonpos hn (by omega) h
  have hround : ∀ c : Int, 0 < c → ofUnits c = ofMagnitude false (roundQuotient c.natAbs 1) := by
    intro c hc
    have hsign : ¬ c < 0 := by omega
    rw [ofUnits, decide_eq_false hsign]
  rw [hround a hpos] at h
  rw [hround b (by omega)]
  exact lt_ofMagnitude h (roundQuotient_mono (by omega))

theorem lt_sub_of_later {n earlier later : Int} {since : Number} (hn : 0 ≤ n)
    (hle : earlier ≤ later) (h : (finite n).lt ((finite earlier).sub since)) :
    (finite n).lt ((finite later).sub since) := by
  cases since with
  | nan => cases h
  | infinite negative => exact h
  | finite units =>
    rw [sub, neg, add] at h ⊢
    exact lt_ofUnits_of_le hn (by omega) h

section

variable {lifetime start : Nat} {since : Number}

/-- As soon as more than a lifetime has passed since some moment, it has passed since every moment
that was not later. -/
theorem lt_sub_of_not_later (hfits : start + lifetime + 1 < 2 ^ 53) (hnumber : since ≠ nan)
    (hpast : ¬ (ofNat start).lt since) :
    (ofNat lifetime).lt ((ofNat (start + lifetime + 1)).sub since) := by
  have hone : (0 : Int) < one := Int.natCast_pos.mpr one_pos
  rw [ofNat_eq (by omega)] at hpast
  rw [ofNat_eq (by omega), ofNat_eq hfits]
  cases since with
  | nan => exact absurd rfl hnumber
  | infinite negative =>
    cases negative with
    | false => exact absurd rfl hpast
    | true => rfl
  | finite units =>
    rw [finite_lt_finite] at hpast
    rw [sub, neg, add]
    -- One millisecond more than the lifetime is not rounded, and it is not too long.
    have hlonger := ofUnits_mul_one (k := lifetime + 1) (by omega)
    have hnonneg : (0 : Int) ≤ lifetime * one :=
      Int.mul_nonneg (Int.natCast_nonneg _) hone.le
    have hfirst : (finite (lifetime * one)).lt (ofUnits ((lifetime + 1 : Nat) * one)) := by
      rw [hlonger, finite_lt_finite]
      push_cast
      linarith
    apply lt_ofUnits_of_le hnonneg _ hfirst
    push_cast
    linarith

/-- A moment at least a millisecond later than another one still lies less than a lifetime back when
it has passed since the other one, and so does what is no moment. -/
theorem not_lt_sub_of_later (hfits : start + lifetime + 1 < 2 ^ 53)
    (hahead : ¬ since.lt (ofNat (start + 1))) :
    ¬ (ofNat lifetime).lt ((ofNat (start + lifetime + 1)).sub since) := by
  have hone : (0 : Int) < one := Int.natCast_pos.mpr one_pos
  rw [ofNat_eq (by omega)] at hahead
  rw [ofNat_eq (by omega), ofNat_eq hfits]
  cases since with
  | nan => exact Bool.false_ne_true
  | infinite negative =>
    cases negative with
    | false => exact Bool.false_ne_true
    | true => exact absurd rfl hahead
  | finite units =>
    rw [finite_lt_finite] at hahead
    rw [sub, neg, add]
    intro hlong
    have hsame := ofUnits_mul_one (k := lifetime) (by omega)
    have hnonneg : (0 : Int) ≤ lifetime * one :=
      Int.mul_nonneg (Int.natCast_nonneg _) hone.le
    have hself : (finite (lifetime * one)).lt (ofUnits (lifetime * one)) := by
      apply lt_ofUnits_of_le hnonneg _ hlong
      push_cast at hahead ⊢
      linarith
    rw [hsame, finite_lt_finite] at hself
    omega

end

end DomainRules.Number
