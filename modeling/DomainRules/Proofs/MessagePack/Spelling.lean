import DomainRules.Holding
import DomainRules.Proofs.Number.Exact
import DomainRules.Proofs.Text.Utf8

namespace DomainRules

namespace Bytes

theorem length_ofNat (width n : Nat) : (ofNat width n).length = width := by
  simp [ofNat]

theorem ofNat_succ (width n : Nat) :
    ofNat (width + 1) n = ofNat width (n / 256) ++ [n.toUInt8] := by
  unfold ofNat
  rw [List.range_succ, List.map_append, List.map_singleton]
  congr 1
  · apply List.map_congr_left
    intro i hi
    have hlt : i < width := List.mem_range.mp hi
    have hshift : 8 * (width + 1 - 1 - i) = 8 + 8 * (width - 1 - i) := by omega
    rw [hshift, Nat.shiftRight_add, Nat.shiftRight_eq_div_pow n 8]
  · simp

theorem bigEndian_ofNat {width n : Nat} (h : n < 256 ^ width) : bigEndian (ofNat width n) = n := by
  induction width generalizing n with
  | zero =>
    have hn : n = 0 := by simpa using h
    rw [hn]
    rfl
  | succ width ih =>
    have hquotient : n / 256 < 256 ^ width := by
      apply Nat.div_lt_of_lt_mul
      rw [← Nat.pow_succ']
      exact h
    have hlast : n.toUInt8.toNat = n % 256 := by simp
    have hfront : bigEndian (ofNat (width + 1) n) =
        256 * bigEndian (ofNat width (n / 256)) + n.toUInt8.toNat := by
      rw [ofNat_succ, bigEndian, List.foldl_append]
      rfl
    rw [hfront, ih hquotient, hlast]
    exact Nat.div_add_mod n 256

end Bytes

namespace Packed

theorem split?_append (front rest : Bytes) :
    split? front.length (front ++ rest) = some (front, rest) := by
  simp [split?]

theorem measured?_ofNat (width : Nat) {n : Nat} (h : n < 256 ^ width) (header : Nat → Header)
    (rest : Bytes) :
    measured? width header (Bytes.ofNat width n ++ rest) = some (header n, rest) := by
  have hsplit := split?_append (Bytes.ofNat width n) rest
  rw [Bytes.length_ofNat] at hsplit
  rw [measured?, hsplit, Option.map_some]
  dsimp only
  rw [Bytes.bigEndian_ofNat h]

theorem header?_textHeader {length : Nat} (h : length < 0x100000000) (rest : Bytes) :
    header? (textHeader length ++ rest) = some (.text length, rest) := by
  unfold textHeader
  split
  · have htag : (0xA0 + length).toUInt8.toNat = 0xA0 + length := Text.toNat_toUInt8 (by omega)
    rw [List.singleton_append, header?, htag]
    rw [if_neg (by omega), if_neg (by omega), if_neg (by omega), if_neg (by omega),
      if_pos (by omega), Nat.add_sub_cancel_left]
  split
  · exact measured?_ofNat 1 (n := length) (by omega) .text rest
  split
  · exact measured?_ofNat 2 (n := length) (by omega) .text rest
  · exact measured?_ofNat 4 (n := length) (by omega) .text rest

/-- Some bytes are read as a value, whatever stands behind them. -/
def Spells (bytes : Bytes) (value : Packed) : Prop :=
  ∀ fuel rest, value? (fuel + 1) { rest := bytes ++ rest } = some (value, { rest })

theorem spells_packText {s : String} (h : (Text.utf8 s.toList).length < 0x100000000) :
    Spells (packText s) (text s) := by
  intro fuel rest
  rw [packText, List.append_assoc, value?]
  dsimp only
  rw [header?_textHeader h]
  dsimp only
  rw [split?_append, Option.map_some, Text.ofUtf8_utf8, String.ofList_toList]

theorem header?_packBytes {data : Bytes} (h : data.length < 0x100000000) (rest : Bytes) :
    header? (packBytes data ++ rest) = some (.bytes data.length, data ++ rest) := by
  rw [packBytes, List.append_assoc]
  split
  · exact measured?_ofNat 1 (n := data.length) (by omega) .bytes (data ++ rest)
  split
  · exact measured?_ofNat 2 (n := data.length) (by omega) .bytes (data ++ rest)
  · exact measured?_ofNat 4 (n := data.length) (by omega) .bytes (data ++ rest)

theorem spells_packBytes {data : Bytes} (h : data.length < 0x100000000) :
    Spells (packBytes data) (.bytes data) := by
  intro fuel rest
  rw [value?]
  dsimp only
  rw [header?_packBytes h]
  dsimp only
  rw [split?_append, Option.map_some]

theorem integer?_ofNat {k : Nat} (h : k < 2 ^ 53) : integer? (.ofNat k) = some (k : Int) := by
  have hone : ((Number.one : Nat) : Int) ≠ 0 := Int.natCast_ne_zero.mpr Number.one_pos.ne'
  rw [Number.ofNat_eq h, integer?, Int.mul_emod_left, if_pos rfl, Int.mul_ediv_cancel _ hone]

theorem Spells.of_whole {bytes : Bytes} {value : Packed}
    (h : ∀ rest, header? (bytes ++ rest) = some (.whole value, rest)) : Spells bytes value := by
  intro fuel rest
  rw [value?]
  dsimp only
  rw [h]

theorem spells_packNumber {n : Number} (h : n.IsSafe) : Spells (packNumber n) (number n) := by
  obtain ⟨k, hk, hn⟩ := h
  rw [hn, packNumber, integer?_ofNat hk]
  -- The formats in order of their length. Only a large number is written as a binary64 number.
  dsimp only
  split
  · rename_i htiny
    have htag : k.toUInt8.toNat = k := Text.toNat_toUInt8 (by omega)
    by_cases hplain : k < 0x40
    · apply Spells.of_whole
      intro rest
      rw [List.singleton_append, header?, htag]
      rw [if_pos hplain]
    · -- It could be a record of a known layout, but no layout was given.
      intro fuel rest
      have hknown : header? ([k.toUInt8] ++ rest) = some (.known k, rest) := by
        rw [List.singleton_append, header?, htag]
        rw [if_neg hplain, if_pos htiny]
      rw [value?]
      dsimp only
      rw [hknown]
      rfl
  split
  · exact .of_whole (measured?_ofNat 1 (n := k) (by omega) fun n => .whole (number (.ofNat n)))
  split
  · exact .of_whole (measured?_ofNat 2 (n := k) (by omega) fun n => .whole (number (.ofNat n)))
  split
  · exact .of_whole (measured?_ofNat 4 (n := k) (by omega) fun n => .whole (number (.ofNat n)))
  · apply Spells.of_whole
    intro rest
    have hpos : k ≠ 0 := by omega
    have hbits : (Number.ofNat k).bits < 256 ^ 8 :=
      Nat.lt_trans (Number.bits_ofNat_lt hpos hk) (by decide)
    have hread := measured?_ofNat 8 hbits (fun bits => .whole (number (.ofBits 11 52 bits))) rest
    rw [Number.ofBits_bits_ofNat hpos hk] at hread
    exact hread

def SpellsFields (bytes : Bytes) (fields : List (String × Packed)) : Prop :=
  ∀ fuel rest, fields? (fuel + (fields.length + 1)) fields.length { rest := bytes ++ rest } =
    some (fields, { rest })

theorem spellsFields_nil : SpellsFields [] [] := by
  intro fuel rest
  exact fields?.eq_1 _ _

theorem SpellsFields.cons {tail bytes : Bytes} {fields : List (String × Packed)} {name : String}
    {value : Packed} (h : SpellsFields tail fields)
    (hname : (Text.utf8 name.toList).length < 0x100000000) (hvalue : Spells bytes value) :
    SpellsFields (packText name ++ bytes ++ tail) ((name, value) :: fields) := by
  intro fuel rest
  have hkey := spells_packText hname (fuel + fields.length) (bytes ++ (tail ++ rest))
  have hitem := hvalue (fuel + fields.length) (tail ++ rest)
  have hmore := h fuel rest
  have hfuel : fuel + (((name, value) :: fields).length + 1) = fuel + fields.length + 1 + 1 := by
    rw [List.length_cons]
    omega
  rw [List.append_assoc, List.append_assoc, hfuel, List.length_cons, fields?, hkey]
  simp only [Option.bind_eq_bind, Option.bind_some, fieldName?]
  rw [hitem]
  simp only [Option.bind_some]
  rw [Nat.add_assoc, hmore]
  rfl

theorem ofBytes?_record {bytes : Bytes} {fields : List (String × Packed)}
    (h : SpellsFields bytes fields) (hfew : fields.length ≤ 6) :
    ofBytes? ((0x80 + fields.length).toUInt8 :: bytes) = some (record fields) := by
  have htag : (0x80 + fields.length).toUInt8.toNat = 0x80 + fields.length :=
    Text.toNat_toUInt8 (by omega)
  have hheader : header? ((0x80 + fields.length).toUInt8 :: bytes) =
      some (.record fields.length, bytes) := by
    rw [header?, htag]
    rw [if_neg (by omega), if_neg (by omega), if_pos (by omega), Nat.add_sub_cancel_left]
  obtain ⟨fuel, hfuel⟩ : ∃ fuel, 4 * ((0x80 + fields.length).toUInt8 :: bytes).length + 4 =
      fuel + (fields.length + 1) + 1 :=
    ⟨4 * bytes.length + 6 - fields.length, by rw [List.length_cons]; omega⟩
  have hfields := h fuel []
  rw [List.append_nil] at hfields
  rw [ofBytes?, hfuel, value?]
  dsimp only
  rw [hheader]
  dsimp only
  rw [hfields]
  rfl

end Packed

namespace Stored

theorem lengths_lt {s : Stored} (h : s.pack.length ≤ longest) :
    s.data.length < 0x100000000 ∧ (Text.utf8 s.fingerprint.toList).length < 0x100000000 := by
  have hdata : s.data.length ≤ (Packed.packBytes s.data).length := by
    simp [Packed.packBytes]
  have hfingerprint : (Text.utf8 s.fingerprint.toList).length ≤
      (Packed.packText s.fingerprint).length := by
    simp [Packed.packText]
  rw [longest, pack] at h
  simp only [List.length_cons, List.length_append] at h
  omega

/-- Reading the record of a snapshot gives the snapshot. -/
theorem unpack?_pack {s : Stored} (hlength : s.pack.length ≤ longest) (hf : s.fingerprint ≠ "")
    (hsince : s.since.IsSafe) : unpack? s.pack = some s := by
  obtain ⟨hdata, hfingerprint⟩ := lengths_lt hlength
  have hfields : Packed.SpellsFields
      (Packed.packText "data" ++ Packed.packBytes s.data ++
        (Packed.packText "fingerprint" ++ Packed.packText s.fingerprint ++
          (Packed.packText "timestamp" ++ Packed.packNumber s.since ++ [])))
      [("data", .bytes s.data), ("fingerprint", .text s.fingerprint),
        ("timestamp", .number s.since)] :=
    ((Packed.spellsFields_nil.cons (by decide) (Packed.spells_packNumber hsince)).cons (by decide)
      (Packed.spells_packText hfingerprint)).cons (by decide) (Packed.spells_packBytes hdata)
  have hrecord := Packed.ofBytes?_record hfields (Nat.le_of_ble_eq_true rfl)
  have hpack : s.pack = (0x80 + 3).toUInt8 ::
      (Packed.packText "data" ++ Packed.packBytes s.data ++
        (Packed.packText "fingerprint" ++ Packed.packText s.fingerprint ++
          (Packed.packText "timestamp" ++ Packed.packNumber s.since ++ []))) := by
    simp only [pack, List.append_assoc, List.append_nil]
    rfl
  calc unpack? s.pack
      = (some (Packed.record [("data", .bytes s.data), ("fingerprint", .text s.fingerprint),
          ("timestamp", .number s.since)])).bind ofPacked? := by
        rw [unpack?, hpack]
        exact congrArg (Option.bind · ofPacked?) hrecord
    _ = if s.fingerprint = "" then none else some s := rfl
    _ = some s := if_neg hf

end Stored

end DomainRules
