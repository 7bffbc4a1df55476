import DomainRules.Proofs.Archive.Members
import DomainRules.Proofs.Archive.Order

namespace DomainRules

namespace Zip

def Entry.IsFileAt (entry : Entry) (path : String) : Prop :=
  entry.isDirectory = false ∧ Text.ofUtf8 entry.name = path.toList

/-- The name leads to nothing further down. -/
def IsListName (name : String) : Prop := name ≠ "" ∧ '/' ∉ name.toList

def reading (bytes : Bytes) (name : String) (entry : Entry) : Except Failure String :=
  match data? bytes entry with
  | some data => .ok (String.ofList (Text.ofUtf8 data))
  | none => .error (.unreadableList name)

variable {directory name : String} {entry : Entry} {entries : List Entry}

theorem isFileAt_append_iff :
    entry.IsFileAt (directory ++ name) ↔
      entry.isDirectory = false ∧ directory.toList <+: Text.ofUtf8 entry.name ∧
        (Text.ofUtf8 entry.name).drop directory.toList.length = name.toList := by
  unfold Entry.IsFileAt
  apply and_congr_right
  intro _
  rw [String.toList_append]
  constructor
  · intro h
    rw [h]
    exact ⟨List.prefix_append _ _, List.drop_left⟩
  · rintro ⟨hfront, hname⟩
    rw [← hname]
    exact (List.prefix_iff_eq_append.mp hfront).symm

theorem listName?_eq_some_iff :
    entry.listName? directory = some name ↔
      IsListName name ∧ entry.IsFileAt (directory ++ name) := by
  rw [isFileAt_append_iff]
  unfold Entry.listName? IsListName
  dsimp only
  have hname_iff : ∀ rest : List Char, (rest.isEmpty || rest.contains '/') = true ↔
      rest = [] ∨ '/' ∈ rest := by
    intro rest
    rw [Bool.or_eq_true, List.isEmpty_iff, List.contains_iff_mem]
  -- Both sides cut the directory off the path; the name is what is left.
  constructor
  · intro h
    split at h
    · cases h
    rename_i hplace
    split at h
    · cases h
    rename_i hrest
    rw [Bool.or_eq_true, not_or, Bool.not_eq_true, Bool.not_eq_true', Bool.not_eq_false,
      List.isPrefixOf_iff_prefix] at hplace
    rw [hname_iff, not_or] at hrest
    rw [← Option.some.inj h, String.toList_ofList]
    refine ⟨⟨?_, hrest.2⟩, hplace.1, hplace.2, rfl⟩
    intro hempty
    exact hrest.1 (String.ofList_eq_empty_iff.mp hempty)
  · rintro ⟨⟨hempty, hslash⟩, hfile, hfront, hrest⟩
    have hplace : ¬ (entry.isDirectory ||
        !directory.toList.isPrefixOf (Text.ofUtf8 entry.name)) = true := by
      rw [hfile, List.isPrefixOf_iff_prefix.mpr hfront]
      exact Bool.false_ne_true
    rw [if_neg hplace, hrest, if_neg, String.ofList_toList]
    rw [hname_iff, not_or]
    exact ⟨fun h => hempty (String.toList_eq_nil_iff.mp h), hslash⟩

def IsLastFileAt (entries : List Entry) (path : String) (entry : Entry) : Prop :=
  entry.IsFileAt path ∧ ∃ before behind, entries = before ++ entry :: behind ∧
    ∀ other ∈ behind, ¬ other.IsFileAt path

theorem isLastFileAt_of_entryOf? (h : entryOf? directory entries name = some entry) :
    IsLastFileAt entries (directory ++ name) entry := by
  obtain ⟨hown, behind, before, hsplit, hnone⟩ := List.find?_eq_some_iff_append.mp h
  rw [decide_eq_true_iff, listName?_eq_some_iff] at hown
  refine ⟨hown.2, before.reverse, behind.reverse, ?_, ?_⟩
  · -- The search goes backwards, so what it has passed stands behind the entry.
    calc
      entries = (behind ++ entry :: before).reverse := by rw [← hsplit, List.reverse_reverse]
      _ = before.reverse ++ entry :: behind.reverse := by simp
  · intro other hother hfile
    have hpassed := hnone other (List.mem_reverse.mp hother)
    have hheld : other.listName? directory = some name :=
      listName?_eq_some_iff.mpr ⟨hown.1, hfile⟩
    simp [hheld] at hpassed

theorem exists_entryOf?_iff :
    (∃ entry, entryOf? directory entries name = some entry) ↔
      IsListName name ∧ ∃ entry ∈ entries, entry.IsFileAt (directory ++ name) := by
  rw [← Option.isSome_iff_exists, entryOf?, List.find?_isSome]
  simp only [List.mem_reverse, decide_eq_true_iff, listName?_eq_some_iff]
  constructor
  · rintro ⟨entry, hentry, hname, hfile⟩
    exact ⟨hname, entry, hentry, hfile⟩
  · rintro ⟨hname, entry, hentry, hfile⟩
    exact ⟨entry, hentry, hname, hfile⟩

end Zip

namespace Archive

/-- What the listing of an archive and its lists have to do with the files of a directory. -/
structure ShowsFiles (archive : Archive) (directory : String) (bytes : Bytes)
    (entries : List Zip.Entry) : Prop where
  ordered : archive.names.Pairwise fun a b => Text.units a.toList < Text.units b.toList
  listed : ∀ name, name ∈ archive.names ↔
    Zip.IsListName name ∧ ∃ entry ∈ entries, entry.IsFileAt (directory ++ name)
  missing : ∀ name, archive.read name = .error (.listNotFound name) ↔ name ∉ archive.names
  /-- Whatever is reported as missing is not listed. -/
  notFound : ∀ name failure, archive.read name = .error failure →
    (failure.kind? = some .notFound ↔ name ∉ archive.names)
  reads : ∀ name ∈ archive.names, ∃ entry, Zip.IsLastFileAt entries (directory ++ name) entry ∧
    archive.read name = Zip.reading bytes name entry

theorem ordered_of_ofZip {directory : String} {bytes : Bytes} {archive : Archive}
    (h : ofZip directory bytes = .ok archive) :
    archive.names.Pairwise fun a b => Text.units a.toList < Text.units b.toList := by
  unfold ofZip at h
  split at h
  · cases h
  · rw [← Except.ok.inj h]
    apply (pairwise_names_ofEntries _).imp
    intro a b hab
    exact Text.unitOrder_iff.mp hab

/-- The listing of an accepted archive is in strict order. It has the names of the files directly in
the directory, and these are the names that can be read; each gives what its last entry holds. -/
theorem showsFiles_ofZip {directory : String} {bytes : Bytes} {archive : Archive}
    (h : ofZip directory bytes = .ok archive) :
    ∃ entries, Zip.entries? bytes = some entries ∧
      archive.ShowsFiles directory bytes entries := by
  obtain ⟨entries, hentries, hcontent⟩ := content?_ofZip h
  have hlisted : ∀ name, name ∈ archive.names ↔
      ∃ entry, Zip.entryOf? directory entries name = some entry := by
    intro name
    rw [mem_names_iff, hcontent]
    cases Zip.entryOf? directory entries name <;> simp
  have hreads : ∀ name entry, Zip.entryOf? directory entries name = some entry →
      archive.read name = Zip.reading bytes name entry := by
    intro name entry hentry
    rw [read, hcontent, hentry, Option.map_some, Zip.content, Zip.reading]
    cases Zip.data? bytes entry <;> rfl
  -- A list that is there fails only by its data, and damaged data are not reported as missing.
  have hnotFound : ∀ name failure, archive.read name = .error failure →
      (failure.kind? = some .notFound ↔ name ∉ archive.names) := by
    intro name failure hfailure
    by_cases hname : name ∈ archive.names
    · obtain ⟨entry, hentry⟩ := (hlisted name).mp hname
      rw [hreads name entry hentry, Zip.reading] at hfailure
      split at hfailure
      · cases hfailure
      · rw [← Except.error.inj hfailure]
        refine iff_of_false ?_ (not_not_intro hname)
        intro hkind
        cases hkind
    · rw [read_of_notMem hname] at hfailure
      rw [← Except.error.inj hfailure]
      exact iff_of_true rfl hname
  refine ⟨entries, hentries, ordered_of_ofZip h, ?_, ?_, hnotFound, ?_⟩
  · intro name
    rw [hlisted, Zip.exists_entryOf?_iff]
  · intro name
    constructor
    · intro hmissing
      exact (hnotFound name _ hmissing).mp rfl
    · exact read_of_notMem
  · intro name hname
    obtain ⟨entry, hentry⟩ := (hlisted name).mp hname
    exact ⟨entry, Zip.isLastFileAt_of_entryOf? hentry, hreads name entry hentry⟩

end Archive

/-- The records of some files in front of their data and in the directory. No file has a check, and
all are stored as they are. -/
def Zip.records : Nat → List (String × String) → Bytes × Bytes
  | _, [] => ([], [])
  | offset, (path, text) :: files =>
    let name := Text.utf8 path.toList
    let data := Text.utf8 text.toList
    let sizes := [0, 0, 0, 0, data.length.toUInt8, 0, 0, 0, data.length.toUInt8, 0, 0, 0,
      name.length.toUInt8, 0]
    let own := [0x50, 0x4B, 3, 4, 20, 0, 0, 0, 0, 0, 0, 0, 0, 0] ++ sizes ++ [0, 0] ++ name ++ data
    let entry := [0x50, 0x4B, 1, 2, 20, 0, 20, 0, 0, 0, 0, 0, 0, 0, 0, 0] ++ sizes ++
      List.replicate 12 0 ++ [offset.toUInt8, 0, 0, 0] ++ name
    let (others, entries) := records (offset + own.length) files
    (own ++ others, entry ++ entries)

/-- An archive of files without checks, so that only those without data can be read. -/
def Zip.unchecked (files : List (String × String)) : Bytes :=
  let (data, entries) := records 0 files
  data ++ entries ++ [0x50, 0x4B, 5, 6, 0, 0, 0, 0, files.length.toUInt8, 0, files.length.toUInt8, 0,
    entries.length.toUInt8, 0, 0, 0, data.length.toUInt8, 0, 0, 0, 0, 0]

namespace Archive

/-- A list that comes twice, a damaged one, a file further down and a directory. -/
def repeatedFiles : Bytes :=
  Zip.unchecked [("d/b", "x"), ("d/a", "x"), ("d/c/e", ""), ("d/f/", ""), ("d/a", "")]

theorem showsFiles_ofZip_repeated :
    ofZip "d/" repeatedFiles =
        .ok ⟨[("a", .text ""), ("b", .failed (.unreadableList "b"))]⟩ ∧
      ∃ entries, Zip.entries? repeatedFiles = some entries ∧
        ShowsFiles ⟨[("a", .text ""), ("b", .failed (.unreadableList "b"))]⟩ "d/" repeatedFiles
          entries := by
  have hzip : ofZip "d/" repeatedFiles =
      .ok ⟨[("a", .text ""), ("b", .failed (.unreadableList "b"))]⟩ := by decide +kernel
  exact ⟨hzip, showsFiles_ofZip hzip⟩

end Archive

end DomainRules
