import DomainRules.Text.Utf8

namespace DomainRules.Text

theorem toNat_toUInt8 {n : Nat} (h : n < 0x100) : n.toUInt8.toNat = n := by
  rw [Nat.toUInt8_eq, UInt8.toNat_ofNat', Nat.mod_eq_of_lt h]

theorem toNat_lt_or_lt (c : Char) : c.toNat < 0xD800 ∨ 0xDFFF < c.toNat ∧ c.toNat < 0x110000 :=
  c.valid

namespace Utf8State

structure Fits (state : Utf8State) (b : UInt8) : Prop where
  least : state.least ≤ b.toNat
  most : b.toNat ≤ state.most

theorem step_within {state : Utf8State} {b : UInt8} (h : Fits state b) (hmore : 1 < state.missing) :
    state.step b =
      ([], ⟨state.missing - 1, 0x40 * state.value + (b.toNat - 0x80), 0x80, 0xBF⟩) := by
  have hsome : state.missing ≠ 0 := by omega
  have hlast : state.missing ≠ 1 := by omega
  rw [step]
  simp only [if_neg hsome, if_pos (And.intro h.least h.most), if_neg hlast]

theorem step_last {state : Utf8State} {b : UInt8} (h : Fits state b) (hlast : state.missing = 1) :
    state.step b = ([Char.ofNat (0x40 * state.value + (b.toNat - 0x80))], ground) := by
  have hsome : state.missing ≠ 0 := by omega
  rw [step]
  simp only [if_neg hsome, if_pos (And.intro h.least h.most), if_pos hlast]

theorem toNat_tail (n : Nat) : (0x80 + n % 0x40).toUInt8.toNat = 0x80 + n % 0x40 :=
  toNat_toUInt8 (by omega)

theorem fits_tail (missing value n : Nat) :
    Fits ⟨missing, value, 0x80, 0xBF⟩ (0x80 + n % 0x40).toUInt8 := by
  constructor <;> rw [toNat_tail] <;> dsimp only <;> omega

theorem begin_one {n : Nat} (h : n < 0x80) :
    ground.step n.toUInt8 = ([Char.ofNat n], ground) := by
  have hn : n.toUInt8.toNat = n := toNat_toUInt8 (by omega)
  change begin n.toUInt8 = _
  rw [begin, hn]
  simp only [if_pos h]

theorem begin_two {n : Nat} (hleast : 0x80 ≤ n) (hmost : n < 0x800) :
    ground.step (0xC0 + n / 0x40).toUInt8 = ([], ⟨1, n / 0x40, 0x80, 0xBF⟩) := by
  have hn : (0xC0 + n / 0x40).toUInt8.toNat = 0xC0 + n / 0x40 := toNat_toUInt8 (by omega)
  have hvalue : 0xC0 + n / 0x40 - 0xC0 = n / 0x40 := by omega
  change begin (0xC0 + n / 0x40).toUInt8 = _
  rw [begin, hn]
  simp only [hvalue]
  rw [if_neg (by omega), if_neg (by omega), if_pos (by omega)]

/-- The first byte of three lets the second one through: it excludes spellings of smaller numbers
and of surrogates only. -/
theorem begin_three (n : Nat) (hleast : 0x800 ≤ n) (hmost : n < 0x10000)
    (hplain : n < 0xD800 ∨ 0xDFFF < n) :
    ∃ state, ground.step (0xE0 + n / 0x1000).toUInt8 = ([], state) ∧ state.missing = 2 ∧
      state.value = n / 0x1000 ∧ Fits state (0x80 + n / 0x40 % 0x40).toUInt8 := by
  have hn : (0xE0 + n / 0x1000).toUInt8.toNat = 0xE0 + n / 0x1000 := toNat_toUInt8 (by omega)
  have hvalue : 0xE0 + n / 0x1000 - 0xE0 = n / 0x1000 := by omega
  change ∃ state, begin (0xE0 + n / 0x1000).toUInt8 = _ ∧ _
  rw [begin, hn]
  simp only [hvalue]
  rw [if_neg (by omega), if_neg (by omega), if_neg (by omega)]
  split
  · refine ⟨_, rfl, rfl, by dsimp only; omega, ?_⟩
    constructor <;> rw [toNat_tail] <;> dsimp only <;> omega
  split
  · refine ⟨_, rfl, rfl, by dsimp only; omega, ?_⟩
    constructor <;> rw [toNat_tail] <;> dsimp only <;> omega
  rw [if_pos (by omega)]
  exact ⟨_, rfl, rfl, rfl, fits_tail _ _ _⟩

theorem begin_four (n : Nat) (hleast : 0x10000 ≤ n) (hmost : n < 0x110000) :
    ∃ state, ground.step (0xF0 + n / 0x40000).toUInt8 = ([], state) ∧ state.missing = 3 ∧
      state.value = n / 0x40000 ∧ Fits state (0x80 + n / 0x1000 % 0x40).toUInt8 := by
  have hn : (0xF0 + n / 0x40000).toUInt8.toNat = 0xF0 + n / 0x40000 := toNat_toUInt8 (by omega)
  have hvalue : 0xF0 + n / 0x40000 - 0xF0 = n / 0x40000 := by omega
  change ∃ state, begin (0xF0 + n / 0x40000).toUInt8 = _ ∧ _
  rw [begin, hn]
  simp only [hvalue]
  rw [if_neg (by omega), if_neg (by omega), if_neg (by omega), if_neg (by omega),
    if_neg (by omega), if_neg (by omega)]
  split
  · refine ⟨_, rfl, rfl, by dsimp only; omega, ?_⟩
    constructor <;> rw [toNat_tail] <;> dsimp only <;> omega
  split
  · exact ⟨_, rfl, rfl, rfl, fits_tail _ _ _⟩
  rw [if_pos (by omega)]
  refine ⟨_, rfl, rfl, by dsimp only; omega, ?_⟩
  constructor <;> rw [toNat_tail] <;> dsimp only <;> omega

theorem decode_cons (state : Utf8State) (b : UInt8) (bytes : List UInt8) :
    state.decode (b :: bytes) = (state.step b).1 ++ (state.step b).2.decode bytes := rfl

theorem decode_within {state : Utf8State} {n : Nat} {bytes : List UInt8}
    (h : Fits state (0x80 + n % 0x40).toUInt8) (hmore : 1 < state.missing) :
    state.decode ((0x80 + n % 0x40).toUInt8 :: bytes) =
      decode ⟨state.missing - 1, 0x40 * state.value + n % 0x40, 0x80, 0xBF⟩ bytes := by
  rw [decode_cons, step_within h hmore, toNat_tail, Nat.add_sub_cancel_left]
  rfl

theorem decode_last {value n : Nat} {c : Char} {bytes : List UInt8}
    (hvalue : 0x40 * value + n % 0x40 = c.toNat) :
    decode ⟨1, value, 0x80, 0xBF⟩ ((0x80 + n % 0x40).toUInt8 :: bytes) =
      c :: ground.decode bytes := by
  rw [decode_cons, step_last (fits_tail _ _ _) rfl, toNat_tail, Nat.add_sub_cancel_left, hvalue,
    Char.ofNat_toNat]
  rfl

theorem decode_utf8OfChar (c : Char) (bytes : List UInt8) :
    ground.decode (utf8OfChar c ++ bytes) = c :: ground.decode bytes := by
  have hc := toNat_lt_or_lt c
  unfold utf8OfChar
  dsimp only
  -- One case for each number of bytes. The first one says how many follow, and each of these adds
  -- six bits.
  split
  · rename_i hone
    rw [List.singleton_append, decode_cons, begin_one hone, Char.ofNat_toNat]
    rfl
  split
  · rename_i hone htwo
    rw [List.cons_append, decode_cons, begin_two (by omega) htwo]
    apply decode_last
    omega
  split
  · rename_i hone htwo hthree
    obtain ⟨state, hbegin, hmissing, hvalue, hfits⟩ :=
      begin_three c.toNat (by omega) hthree (by omega)
    rw [List.cons_append, decode_cons, hbegin]
    change state.decode _ = _
    rw [List.cons_append, decode_within hfits (by omega), hmissing, hvalue]
    apply decode_last
    omega
  · rename_i hone htwo hthree
    obtain ⟨state, hbegin, hmissing, hvalue, hfits⟩ :=
      begin_four c.toNat (by omega) (by omega)
    rw [List.cons_append, decode_cons, hbegin]
    change state.decode _ = _
    rw [List.cons_append, decode_within hfits (by omega), hmissing, hvalue, List.cons_append,
      decode_within (fits_tail _ _ _) Nat.one_lt_two]
    apply decode_last
    dsimp only
    omega

end Utf8State

theorem ofUtf8_utf8 (s : List Char) : ofUtf8 (utf8 s) = s := by
  unfold ofUtf8
  induction s with
  | nil => rfl
  | cons c s ih =>
    rw [utf8, List.flatMap_cons, Utf8State.decode_utf8OfChar]
    exact congrArg (c :: ·) ih

end DomainRules.Text
