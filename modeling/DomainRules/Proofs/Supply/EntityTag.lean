import DomainRules.Proofs.Text.Lines
import DomainRules.Publisher
import DomainRules.Supply

namespace DomainRules

inductive TagForm where
  | strong
  | weak
  deriving DecidableEq, Repr

def TagForm.header : TagForm → String → String
  | .strong, tag => "\"" ++ tag ++ "\""
  | .weak, tag => "W/\"" ++ tag ++ "\""

def TagForm.mark : TagForm → List Char
  | .strong => []
  | .weak => ['W', '/']

/-- An opaque tag is not empty and holds no quotes, spaces and control characters. -/
structure IsOpaqueTag (tag : String) : Prop where
  ne : tag ≠ ""
  visible : ∀ c ∈ tag.toList, c ≠ '"' ∧ 0x20 < c.toNat ∧ c.toNat ≠ 0x7F

/-- A tag without blanks at its ends; a blank may be one that is no space. -/
structure IsUnpaddedTag (tag : String) : Prop where
  first : ∀ c ∈ tag.toList.head?, Text.isBlank c = false
  last : ∀ c ∈ tag.toList.getLast?, Text.isBlank c = false

/-- A tag that does not begin like the header of a weak one. -/
def IsUnmarkedTag (tag : String) : Prop := ¬ "W/".toList <+: tag.toList

instance (tag : String) : Decidable (IsOpaqueTag tag) :=
  decidable_of_iff
    (tag ≠ "" ∧
      tag.toList.all (fun c => c ≠ '"' ∧ 0x20 < c.toNat ∧ c.toNat ≠ 0x7F) = true)
    ⟨fun ⟨hne, hvisible⟩ => ⟨hne, by simpa using hvisible⟩,
      fun h => ⟨h.ne, by simpa using h.visible⟩⟩

instance (tag : String) : Decidable (IsUnpaddedTag tag) :=
  decidable_of_iff
    (tag.toList.head?.all (Text.isBlank · = false) = true ∧
      tag.toList.getLast?.all (Text.isBlank · = false) = true)
    ⟨fun ⟨hfirst, hlast⟩ =>
        ⟨by simpa [Option.all_eq_true] using hfirst, by simpa [Option.all_eq_true] using hlast⟩,
      fun h =>
        ⟨by simpa [Option.all_eq_true] using h.first, by simpa [Option.all_eq_true] using h.last⟩⟩

instance (tag : String) : Decidable (IsUnmarkedTag tag) :=
  inferInstanceAs (Decidable (¬ "W/".toList <+: tag.toList))

namespace Text

theorem length_trimEnd_le (s : List Char) : (trimEnd s).length ≤ s.length := by
  calc (trimEnd s).length
      = (s.reverse.dropWhile isBlank).length := List.length_reverse
    _ ≤ s.reverse.length := (List.dropWhile_suffix isBlank).length_le
    _ = s.length := List.length_reverse

theorem length_trim_le (s : List Char) : (trim s).length ≤ s.length :=
  (length_trimEnd_le (trimStart s)).trans (List.dropWhile_suffix isBlank).length_le

theorem isBlank_eq_false_of_mem_dropWhile {s : List Char} {c : Char}
    (h : c ∈ (s.dropWhile isBlank).head?) : isBlank c = false := by
  have hstop := List.head?_dropWhile_not isBlank s
  rw [h] at hstop
  exact hstop

theorem trim_eq_self_iff (s : List Char) :
    trim s = s ↔ (∀ c ∈ s.head?, isBlank c = false) ∧ ∀ c ∈ s.getLast?, isBlank c = false := by
  constructor
  · intro h
    -- Nothing is taken away in front, since the text would be shorter without it.
    have hstart : trimStart s = s := by
      have hlength := length_trimEnd_le (trimStart s)
      rw [← trim, h] at hlength
      exact (List.dropWhile_suffix isBlank).eq_of_length_le hlength
    refine ⟨?_, ?_⟩
    · intro c hc
      rw [← hstart] at hc
      exact isBlank_eq_false_of_mem_dropWhile hc
    · intro c hc
      rw [← h, trim, trimEnd, List.getLast?_reverse] at hc
      exact isBlank_eq_false_of_mem_dropWhile hc
  · rintro ⟨hfirst, hlast⟩
    by_cases hne : s = []
    · rw [hne]
      rfl
    · have hnone : ∀ c ∈ ([] : List Char), isBlank c = true := fun c hc => by cases hc
      have htrim := trim_append hnone hnone hne hfirst hlast
      rwa [List.nil_append, List.append_nil] at htrim

theorem count_trim {c : Char} (hc : isBlank c = false) (s : List Char) :
    (trim s).count c = s.count c := by
  have hdrop : ∀ t : List Char, (t.dropWhile isBlank).count c = t.count c := by
    intro t
    have hfront : (t.takeWhile isBlank).count c = 0 := by
      apply List.count_eq_zero.mpr
      intro hmem
      have hblank := List.all_eq_true.mp List.all_takeWhile c hmem
      rw [hc] at hblank
      cases hblank
    calc (t.dropWhile isBlank).count c
        = (t.takeWhile isBlank).count c + (t.dropWhile isBlank).count c := by
          rw [hfront, Nat.zero_add]
      _ = (t.takeWhile isBlank ++ t.dropWhile isBlank).count c := List.count_append.symm
      _ = t.count c := by rw [List.takeWhile_append_dropWhile]
  rw [trim, trimEnd, List.count_reverse, hdrop, List.count_reverse, trimStart, hdrop]

end Text

namespace Fingerprint

variable {tag : String}

theorem filter_header (h : IsOpaqueTag tag) (form : TagForm) :
    (form.header tag).toList.filter (· ≠ '"') = form.mark ++ tag.toList := by
  have htag : tag.toList.filter (· ≠ '"') = tag.toList := by
    apply List.filter_eq_self.mpr
    intro c hc
    exact decide_eq_true (h.visible c hc).1
  have hclosing : "\"".toList.filter (· ≠ '"') = [] := rfl
  cases form
  all_goals
    rw [TagForm.header, String.toList_append, String.toList_append, List.filter_append,
      List.filter_append, htag, hclosing, List.append_nil]
    rfl

theorem ofEntityTag_weak (h : IsOpaqueTag tag) :
    ofEntityTag (TagForm.weak.header tag) = String.ofList (Text.trim tag.toList) := by
  simp only [ofEntityTag, filter_header h, TagForm.mark, List.cons_append, List.nil_append]

theorem ofEntityTag_strong (h : IsOpaqueTag tag) (hu : IsUnmarkedTag tag) :
    ofEntityTag (TagForm.strong.header tag) = String.ofList (Text.trim tag.toList) := by
  simp only [ofEntityTag, filter_header h, TagForm.mark, List.nil_append]
  split
  · rename_i rest hmark
    exact absurd ⟨rest, hmark.symm⟩ hu
  · rfl

/-- The quotes are dropped first, so a tag that begins like a weak one loses its own beginning. -/
theorem ofEntityTag_strong_of_marked (h : IsOpaqueTag tag) {rest : List Char}
    (hmark : tag.toList = 'W' :: '/' :: rest) :
    ofEntityTag (TagForm.strong.header tag) = String.ofList (Text.trim rest) := by
  simp only [ofEntityTag, filter_header h, TagForm.mark, List.nil_append, hmark]

theorem exists_rest_of_marked (h : "W/".toList <+: tag.toList) :
    ∃ rest, tag.toList = 'W' :: '/' :: rest := by
  obtain ⟨rest, hrest⟩ := h
  exact ⟨rest, hrest.symm⟩

theorem toList_eq_of_ofList_eq {s : List Char} (h : String.ofList s = tag) : s = tag.toList := by
  rw [← h, String.toList_ofList]

theorem ofList_trim_eq_iff : String.ofList (Text.trim tag.toList) = tag ↔ IsUnpaddedTag tag := by
  constructor
  · intro he
    obtain ⟨hfirst, hlast⟩ := (Text.trim_eq_self_iff tag.toList).mp (toList_eq_of_ofList_eq he)
    exact ⟨hfirst, hlast⟩
  · intro h
    rw [(Text.trim_eq_self_iff tag.toList).mpr ⟨h.first, h.last⟩, String.ofList_toList]

theorem ofEntityTag_weak_eq_iff (h : IsOpaqueTag tag) :
    ofEntityTag (TagForm.weak.header tag) = tag ↔ IsUnpaddedTag tag := by
  rw [ofEntityTag_weak h, ofList_trim_eq_iff]

theorem ofEntityTag_strong_eq_iff (h : IsOpaqueTag tag) :
    ofEntityTag (TagForm.strong.header tag) = tag ↔ IsUnpaddedTag tag ∧ IsUnmarkedTag tag := by
  by_cases hu : IsUnmarkedTag tag
  · rw [ofEntityTag_strong h hu, ofList_trim_eq_iff, and_iff_left hu]
  · obtain ⟨rest, hmark⟩ := exists_rest_of_marked (not_not.mp hu)
    rw [ofEntityTag_strong_of_marked h hmark]
    refine iff_of_false ?_ fun hboth => hu hboth.2
    intro he
    -- What is left of the tag is shorter than the tag.
    have hlength := congrArg List.length (toList_eq_of_ofList_eq he)
    have hshort := Text.length_trim_le rest
    rw [hmark, List.length_cons, List.length_cons] at hlength
    omega

end Fingerprint

namespace Publisher

variable {tag : String}

def tagged (form : TagForm) (tag : String) (body : Bytes) : Answer :=
  .answered (.ofNat 200) (some (form.header tag)) body

theorem version_tagged_eq (url : String) (form : TagForm) (tag : String) (body : Bytes) :
    version url (tagged form tag body) =
      .ok ((some (Fingerprint.ofEntityTag (form.header tag))).filter (· ≠ "")) := by
  rw [version, tagged, accept, if_pos rfl]
  rfl

theorem version_tagged_eq_iff (hne : tag ≠ "") (url : String) (form : TagForm) (body : Bytes) :
    version url (tagged form tag body) = .ok (some tag) ↔
      Fingerprint.ofEntityTag (form.header tag) = tag := by
  rw [version_tagged_eq]
  constructor
  · intro h
    have hfilter := Except.ok.inj h
    rw [Option.filter_eq_some_iff] at hfilter
    exact Option.some.inj hfilter.1
  · intro h
    rw [h]
    simp [hne]

theorem version_weak_eq_strong_iff (h : IsOpaqueTag tag) (url : String) (body : Bytes) :
    version url (tagged .weak tag body) = version url (tagged .strong tag body) ↔
      IsUnmarkedTag tag := by
  rw [version_tagged_eq, version_tagged_eq, Fingerprint.ofEntityTag_weak h]
  constructor
  · intro heq hmarked
    obtain ⟨rest, hmark⟩ := Fingerprint.exists_rest_of_marked hmarked
    rw [Fingerprint.ofEntityTag_strong_of_marked h hmark, hmark] at heq
    -- The weak form keeps the mark, so its version is there, and it has one slash more.
    have hne : String.ofList (Text.trim ('W' :: '/' :: rest)) ≠ "" := by
      intro hempty
      have hhead := Text.head?_trim (show Text.isBlank 'W' = false by decide) ('/' :: rest)
      rw [Fingerprint.toList_eq_of_ofList_eq hempty] at hhead
      cases hhead
    have hsame := Except.ok.inj heq
    rw [Option.filter_some_pos (by simpa using hne)] at hsame
    have htexts := Option.some.inj (Option.filter_eq_some_iff.mp hsame.symm).1
    have hslashes := congrArg (fun s : String => s.toList.count '/') htexts
    simp only [String.toList_ofList] at hslashes
    rw [Text.count_trim (by decide), Text.count_trim (by decide)] at hslashes
    simp at hslashes
  · intro hu
    rw [Fingerprint.ofEntityTag_strong h hu]

end Publisher

def IsPlainTag (tag : String) : Prop := IsUnpaddedTag tag ∧ IsUnmarkedTag tag

instance (tag : String) : Decidable (IsPlainTag tag) :=
  inferInstanceAs (Decidable (IsUnpaddedTag tag ∧ IsUnmarkedTag tag))

theorem Publisher.version_tagged {tag : String} (h : IsOpaqueTag tag) (hp : IsPlainTag tag)
    (url : String) (form : TagForm) (body : Bytes) :
    version url (tagged form tag body) = .ok (some tag) := by
  apply (version_tagged_eq_iff h.ne url form body).mpr
  cases form with
  | strong => exact (Fingerprint.ofEntityTag_strong_eq_iff h).mpr hp
  | weak => exact (Fingerprint.ofEntityTag_weak_eq_iff h).mpr hp.1

/-- A probe reports a tag in its weak form as it is exactly if the tag has no blank at its ends, and
in its strong form exactly if it does not begin like a weak one either. Both forms give the same
version exactly if it does not begin so. Tags that are reported as they are in both forms are told
apart: the archive is downloaded if its tag is not the one that is held. -/
theorem version_tagged_iff_plain {tag : String} (h : IsOpaqueTag tag) (url : String) (body : Bytes) :
    (Publisher.version url (Publisher.tagged .weak tag body) = .ok (some tag) ↔
        IsUnpaddedTag tag) ∧
      (Publisher.version url (Publisher.tagged .strong tag body) = .ok (some tag) ↔
        IsPlainTag tag) ∧
      (Publisher.version url (Publisher.tagged .weak tag body) =
          Publisher.version url (Publisher.tagged .strong tag body) ↔ IsUnmarkedTag tag) ∧
      (IsPlainTag tag → ∀ held, IsOpaqueTag held → IsPlainTag held → tag ≠ held →
        ∀ form before : TagForm,
          Publisher.version url (Publisher.tagged form tag body) ≠
              Publisher.version url (Publisher.tagged before held body) ∧
            ∀ (ι : Type) (supply : Supply ι) (callers : List ι) (archive : Archive) (now : Number),
              supply.phase = .probing (some ⟨archive, some held⟩) callers →
              supply.probed now (Publisher.version url (Publisher.tagged form tag body)) =
                ({ supply with
                    phase := .downloading (some ⟨archive, some held⟩) (some tag) callers },
                  .downloads, [])) := by
  refine ⟨?_, ?_, Publisher.version_weak_eq_strong_iff h url body, ?_⟩
  · rw [Publisher.version_tagged_eq_iff h.ne, Fingerprint.ofEntityTag_weak_eq_iff h]
  · rw [Publisher.version_tagged_eq_iff h.ne, Fingerprint.ofEntityTag_strong_eq_iff h]
    rfl
  · intro hp held hheld hpheld hne form before
    -- A plain tag is its own version in either form, and then versions differ as tags do.
    have hversion := Publisher.version_tagged h hp url form body
    have hbefore := Publisher.version_tagged hheld hpheld url before body
    refine ⟨?_, ?_⟩
    · rw [hversion, hbefore]
      intro he
      exact hne (Option.some.inj (Except.ok.inj he))
    · intro ι supply callers archive now hphase
      have hother : ¬ ((some tag).isSome && some tag = some held) = true := by simpa using hne
      rw [hversion, Supply.probed, hphase]
      simp only [if_neg hother]

/-- A tag with the mark of a weak one at its end, against a shorter one. -/
theorem version_tagged_iff_plain_appended :
    IsOpaqueTag "v1é/W/" ∧ IsPlainTag "v1é/W/" ∧ IsOpaqueTag "v1é" ∧ IsPlainTag "v1é" ∧
      Publisher.version "u" (Publisher.tagged .strong "v1é/W/" []) = .ok (some "v1é/W/") ∧
      Publisher.version "u" (Publisher.tagged .strong "v1é/W/" []) ≠
        Publisher.version "u" (Publisher.tagged .weak "v1é" []) := by
  have hlong : IsOpaqueTag "v1é/W/" := by decide
  have hshort : IsOpaqueTag "v1é" := by decide
  have hplain : IsPlainTag "v1é/W/" := by decide
  have hplain' : IsPlainTag "v1é" := by decide
  obtain ⟨-, hstrong, -, hdistinct⟩ := version_tagged_iff_plain hlong "u" []
  have hother := hdistinct hplain "v1é" hshort hplain' (by decide) .strong .weak
  exact ⟨hlong, hplain, hshort, hplain', hstrong.mpr hplain, hother.1⟩

/-- In its strong form a tag that begins like a weak one is taken for what is left of it. -/
theorem version_tagged_marked :
    IsOpaqueTag "W/x" ∧ IsOpaqueTag "x" ∧ "W/x" ≠ "x" ∧
      Publisher.version "u" (Publisher.tagged .strong "W/x" []) = .ok (some "x") ∧
      Publisher.version "u" (Publisher.tagged .strong "x" []) = .ok (some "x") ∧
      Publisher.version "u" (Publisher.tagged .weak "W/x" []) = .ok (some "W/x") := by
  refine ⟨by decide, by decide, by decide, ?_, ?_, ?_⟩ <;> decide +kernel

end DomainRules
