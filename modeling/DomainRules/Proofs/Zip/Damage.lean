import DomainRules.Proofs.Archive.Members
import DomainRules.Proofs.Holding.Basic

/-!
What keeps the data of an entry from being read, and which of it an archive may hold when it is
taken up. Only the directory of an archive is looked at by then, so the answer is: any of it.
-/
namespace DomainRules

namespace Zip

def expectedCheck? (bytes : Bytes) (entry : Entry) (header : Header) : Option Nat :=
  if Entry.hasDescriptor entry.flags || Entry.hasDescriptor header.flags then
    describedCheck? bytes entry (header.start + entry.compressedSize)
  else some header.check

def packedData (bytes : Bytes) (entry : Entry) (header : Header) : Bytes :=
  bytes.slice header.start entry.compressedSize

/-- What may be wrong with the packed data of an entry. -/
inductive Garbled (entry : Entry) (packed : Bytes) : Prop where
  | method (hstored : entry.method ≠ 0) (hdeflated : entry.method ≠ 8)
  | stream (hdeflated : entry.method = 8) (hstream : Deflate.inflate? packed = none)
  | excess {data : Bytes} (hdeflated : entry.method = 8)
    (hstream : Deflate.inflate? packed = some data) (hsize : entry.size ≠ 0)
    (hlong : entry.size < data.length)

inductive Fault (bytes : Bytes) (entry : Entry) (header : Header) : Prop where
  | encrypted (h : entry.isEncrypted = true)
  | garbled (h : Garbled entry (packedData bytes entry header))
  /-- The record behind the data that should hold their check is missing, or is not about them. -/
  | descriptor (h : expectedCheck? bytes entry header = none)
  | check {data : Bytes} {check : Nat}
    (hdata : unpack? entry (packedData bytes entry header) = some data)
    (hcheck : expectedCheck? bytes entry header = some check)
    (hne : Crc32.ofBytes (Bytes.fitTo entry.size data) ≠ check)

/-- What may be wrong with an entry outside the directory. -/
inductive Damage (bytes : Bytes) (entry : Entry) : Prop where
  | headless (h : header? bytes entry = none)
  | faulty {header : Header} (hheader : header? bytes entry = some header)
    (hdata : packedData bytes entry header ≠ []) (h : Fault bytes entry header)

theorem unpack?_eq_none_iff (entry : Entry) (packed : Bytes) :
    unpack? entry packed = none ↔ Garbled entry packed := by
  constructor
  · intro h
    unfold unpack? at h
    split at h
    · cases h
    · rename_i hdeflated
      cases hstream : Deflate.inflate? packed with
      | none => exact .stream hdeflated hstream
      | some data =>
        rw [hstream, Option.filter_some, ite_eq_right_iff] at h
        have hlong : ¬ (entry.size = 0 ∨ data.length ≤ entry.size) := by simpa using h
        exact .excess hdeflated hstream (by omega) (by omega)
    · rename_i hstored hdeflated
      exact .method hstored hdeflated
  · intro h
    unfold unpack?
    cases h with
    | method hstored hdeflated =>
      split
      · exact absurd ‹_› hstored
      · exact absurd ‹_› hdeflated
      · rfl
    | stream hdeflated hstream =>
      rw [hdeflated]
      simp [hstream]
    | excess hdeflated hstream hsize hlong =>
      rw [hdeflated]
      simp [hstream, hsize, hlong]

section

variable {bytes : Bytes} {entry : Entry} {header : Header}

theorem data?_of_headless (hheader : header? bytes entry = none) : data? bytes entry = none := by
  unfold data?
  rw [hheader]
  rfl

theorem data?_of_empty (hheader : header? bytes entry = some header)
    (hdata : packedData bytes entry header = []) : data? bytes entry = some [] := by
  have hempty : (bytes.slice header.start entry.compressedSize).isEmpty = true :=
    List.isEmpty_iff.mpr hdata
  unfold data?
  rw [hheader, Option.bind_eq_bind, Option.bind_some]
  dsimp only
  rw [if_pos hempty]
  rfl

theorem guard_bind_some {α : Type} (p : Prop) [Decidable p] (a : α) :
    (do guard p; pure a : Option α) = if p then some a else none := by
  unfold guard
  split <;> rfl

theorem data?_of_not_empty (hheader : header? bytes entry = some header)
    (hdata : packedData bytes entry header ≠ []) :
    data? bytes entry =
      if entry.isEncrypted then none
      else (unpack? entry (packedData bytes entry header)).bind fun unpacked =>
        (expectedCheck? bytes entry header).bind fun check =>
          if Crc32.ofBytes (Bytes.fitTo entry.size unpacked) = check then
            some (Bytes.fitTo entry.size unpacked)
          else none := by
  unfold packedData at hdata ⊢
  have hfull : ¬ (bytes.slice header.start entry.compressedSize).isEmpty = true := by
    simpa using hdata
  unfold data?
  rw [hheader, Option.bind_eq_bind, Option.bind_some]
  dsimp only
  rw [if_neg hfull]
  cases entry.isEncrypted
  · cases unpack? entry (bytes.slice header.start entry.compressedSize) with
    | none => rfl
    | some unpacked =>
      unfold expectedCheck?
      rw [if_neg Bool.false_ne_true]
      -- Wherever the check comes from, the same comparison follows.
      by_cases hbehind :
          (Entry.hasDescriptor entry.flags || Entry.hasDescriptor header.flags) = true
      · rw [if_pos hbehind]
        dsimp only [Option.bind_eq_bind, Option.bind_some]
        rw [if_pos hbehind]
        cases describedCheck? bytes entry (header.start + entry.compressedSize) with
        | none => rfl
        | some check => exact guard_bind_some _ _
      · rw [if_neg hbehind]
        dsimp only [Option.bind_eq_bind, Option.bind_some]
        rw [if_neg hbehind]
        exact guard_bind_some _ _
  · rfl

theorem data?_eq_none_iff_fault (hheader : header? bytes entry = some header)
    (hdata : packedData bytes entry header ≠ []) :
    data? bytes entry = none ↔ Fault bytes entry header := by
  rw [data?_of_not_empty hheader hdata]
  constructor
  · intro h
    by_cases hencrypted : entry.isEncrypted
    · exact .encrypted hencrypted
    rw [if_neg hencrypted] at h
    cases hunpacked : unpack? entry (packedData bytes entry header) with
    | none => exact .garbled ((unpack?_eq_none_iff _ _).mp hunpacked)
    | some unpacked =>
      cases hcheck : expectedCheck? bytes entry header with
      | none => exact .descriptor hcheck
      | some check =>
        rw [hunpacked, hcheck, Option.bind_some, Option.bind_some, ite_eq_right_iff] at h
        exact .check hunpacked hcheck fun he => Option.some_ne_none _ (h he)
  · intro h
    cases h with
    | encrypted hencrypted => rw [if_pos hencrypted]
    | garbled hgarbled => simp [(unpack?_eq_none_iff _ _).mpr hgarbled]
    | descriptor hcheck => simp [hcheck]
    | check hunpacked hcheck hne => simp [hunpacked, hcheck, hne]

end

theorem data?_eq_none_iff (bytes : Bytes) (entry : Entry) :
    data? bytes entry = none ↔ Damage bytes entry := by
  cases hheader : header? bytes entry with
  | none => exact iff_of_true (data?_of_headless hheader) (.headless hheader)
  | some header =>
    by_cases hdata : packedData bytes entry header = []
    · rw [data?_of_empty hheader hdata]
      refine iff_of_false (Option.some_ne_none _) fun h => ?_
      cases h with
      | headless h => cases hheader.symm.trans h
      | faulty h hne =>
        obtain rfl := Option.some.inj (hheader.symm.trans h)
        exact absurd hdata hne
    · rw [data?_eq_none_iff_fault hheader hdata]
      refine ⟨.faulty hheader hdata, fun h => ?_⟩
      cases h with
      | headless h => cases hheader.symm.trans h
      | faulty h _ hfault =>
        obtain rfl := Option.some.inj (hheader.symm.trans h)
        exact hfault

instance (bytes : Bytes) (entry : Entry) : Decidable (Damage bytes entry) :=
  decidable_of_iff _ (data?_eq_none_iff bytes entry)

theorem read_ok_iff_not_damage (bytes : Bytes) (entry : Entry) (name : String) :
    (∃ text, content bytes name entry = .text text) ↔ ¬ Damage bytes entry := by
  rw [← data?_eq_none_iff]
  unfold content
  cases data? bytes entry <;> simp

end Zip

namespace Holding

/-- A list of an archive that was taken up can be read exactly if the last entry that holds it is
undamaged. Nothing asks that of it when the archive is taken up. -/
theorem readable_iff_undamaged {holding next : Holding} {now : Number} {data : Bytes}
    {fingerprint : String} {snapshot : Snapshot} {notices : List Notice}
    (h : holding.set now data fingerprint = (next, .ok snapshot, notices)) :
    ∃ entries, Zip.entries? data = some entries ∧
      (∀ name, name ∈ snapshot.archive.names ↔
        ∃ entry, Zip.entryOf? holding.directory entries name = some entry) ∧
      (∀ name entry, Zip.entryOf? holding.directory entries name = some entry →
        ((∃ text, snapshot.archive.read name = .ok text) ↔ ¬ Zip.Damage data entry)) ∧
      ((∀ name ∈ snapshot.archive.names, ∃ text, snapshot.archive.read name = .ok text) ↔
        ∀ name entry, Zip.entryOf? holding.directory entries name = some entry →
          ¬ Zip.Damage data entry) := by
  obtain ⟨archive, harchive, -, rfl, -⟩ := held_of_set_ok h
  obtain ⟨entries, hentries, hcontent⟩ := Archive.content?_ofZip harchive
  have hnames : ∀ name, name ∈ archive.names ↔
      ∃ entry, Zip.entryOf? holding.directory entries name = some entry := by
    intro name
    rw [Archive.mem_names_iff, hcontent]
    cases Zip.entryOf? holding.directory entries name <;> simp
  -- Each name leads to one entry, so the lists fail one by one.
  have hread : ∀ name entry, Zip.entryOf? holding.directory entries name = some entry →
      ((∃ text, archive.read name = .ok text) ↔ ¬ Zip.Damage data entry) := by
    intro name entry hentry
    have hheld : archive.content? name = some (Zip.content data name entry) := by
      rw [hcontent, hentry, Option.map_some]
    rw [← Zip.read_ok_iff_not_damage data entry name, Archive.read, hheld]
    cases Zip.content data name entry <;> simp
  refine ⟨entries, hentries, hnames, hread, fun hall name entry hentry => ?_,
    fun hall name hname => ?_⟩
  · have hlisted : name ∈ archive.names := (hnames name).mpr ⟨entry, hentry⟩
    exact (hread name entry hentry).mp (hall name hlisted)
  · obtain ⟨entry, hentry⟩ := (hnames name).mp hname
    exact (hread name entry hentry).mpr (hall name entry hentry)

end Holding

def Zip.single (path text : String) (check : Bytes) : Bytes :=
  let name := Text.utf8 path.toList
  let data := Text.utf8 text.toList
  let sizes := [data.length.toUInt8, 0, 0, 0, data.length.toUInt8, 0, 0, 0, name.length.toUInt8, 0]
  let header := [0x50, 0x4B, 3, 4, 20, 0, 0, 0, 0, 0, 0, 0, 0, 0] ++ check ++ sizes ++ [0, 0]
  let entry := [0x50, 0x4B, 1, 2, 20, 0, 20, 0, 0, 0, 0, 0, 0, 0, 0, 0] ++ check ++ sizes ++
    List.replicate 16 0
  let start := header.length + name.length + data.length
  header ++ name ++ data ++ entry ++ name ++
    [0x50, 0x4B, 5, 6, 0, 0, 0, 0, 1, 0, 1, 0, (entry.length + name.length).toUInt8, 0, 0, 0,
      start.toUInt8, 0, 0, 0, 0, 0]

namespace Holding

def vacant : Holding where
  lifetime := .ofNat 1000
  directory := "domain-list-community-master/data/"
  file := { path := "archive.bin" }

def googleArchive (check : Bytes) : Bytes :=
  Zip.single "domain-list-community-master/data/google" "google.com\n" check

def googleCheck : Bytes := [0x64, 0x8B, 0x30, 0x5B]

theorem ofZip_google :
    Archive.ofZip vacant.directory (googleArchive googleCheck) =
      .ok ⟨[("google", .text "google.com\n")]⟩ := by
  decide +kernel

theorem ofZip_google_miscounted :
    Archive.ofZip vacant.directory (googleArchive [0, 0, 0, 0]) =
      .ok ⟨[("google", .failed (.unreadableList "google"))]⟩ := by
  decide +kernel

theorem readable_iff_undamaged_google :
    ∃ entries, Zip.entries? (googleArchive googleCheck) = some entries ∧
      ∀ name entry, Zip.entryOf? vacant.directory entries name = some entry →
        ¬ Zip.Damage (googleArchive googleCheck) entry := by
  have hset := set_of_ofZip (.ofNat 0) (by decide : "v1" ≠ "") ofZip_google rfl
  obtain ⟨entries, hentries, -, -, hall⟩ := readable_iff_undamaged hset
  refine ⟨entries, hentries, hall.mp fun name hname => ?_⟩
  have hgoogle : name = "google" := by simpa [Archive.names] using hname
  exact ⟨"google.com\n", by rw [hgoogle]; rfl⟩

/-- A list that could be read is replaced by one whose check is wrong. -/
theorem unreadable_after_set_google :
    ∃ before after old new,
      vacant.set (.ofNat 0) (googleArchive googleCheck) "v1" =
        (before, .ok old, [sizeNotice (googleArchive googleCheck)]) ∧
      old.archive.read "google" = .ok "google.com\n" ∧
      before.set (.ofNat 0) (googleArchive [0, 0, 0, 0]) "v2" =
        (after, .ok new, [sizeNotice (googleArchive [0, 0, 0, 0])]) ∧
      "google" ∈ new.archive.names ∧
      new.archive.read "google" = .error (.unreadableList "google") :=
  ⟨_, _, _, _, set_of_ofZip _ (by decide) ofZip_google rfl, by decide,
    set_of_ofZip _ (by decide) ofZip_google_miscounted rfl, by decide, by decide⟩

end Holding

end DomainRules
