import DomainRules.Proofs.Expansion.Composition
import DomainRules.Proofs.Expansion.Faults
import Mathlib.Data.List.Chain
import Mathlib.Data.List.Nodup

/-!
Which fault an expansion reports. The inclusions of a list are followed depth first and in the order
of their lines, and the first one that leads back to a list on the way, to a list that is not there
or to one that cannot be decoded is reported, with the way that led to it.
-/
namespace DomainRules

/-- A failure that says neither that a list is missing nor anything of inclusions. -/
def Failure.IsOfContent : Failure → Prop
  | .listNotFound _ => False
  | .includedListNotFound _ _ => False
  | .cyclicInclude _ => False
  | _ => True

theorem Failure.IsOfContent.whenIncluded_eq {failure : Failure} (h : failure.IsOfContent)
    (path : List String) (name : String) : failure.whenIncluded path name = failure := by
  cases failure with
  | listNotFound member => cases h
  | _ => rfl

namespace Archive

/-- A member that is there fails at most for what it holds itself. -/
def FailsForContent (archive : Archive) : Prop :=
  ∀ name failure, archive.content? name = some (.failed failure) → failure.IsOfContent

theorem failsForContent_of_texts {archive : Archive}
    (h : ∀ member ∈ archive.members, ∃ text, member.2 = .text text) : archive.FailsForContent := by
  intro name failure hfailed
  obtain ⟨before, behind, hmembers, -⟩ := List.lookup_eq_some_iff.mp hfailed
  obtain ⟨text, htext⟩ := h (name, .failed failure) (by simp [hmembers])
  cases htext

theorem failsForContent_of_ofZip {archive : Archive} {directory : String} {bytes : Bytes}
    (h : ofZip directory bytes = .ok archive) : archive.FailsForContent := by
  intro name failure hfailed
  rw [failure_eq_of_ofZip h hfailed]
  trivial

theorem FailsForContent.of_read_error {archive : Archive} (h : archive.FailsForContent)
    {name : String} {failure : Failure} (hr : archive.read name = .error failure) :
    (name ∉ archive.names ∧ failure = .listNotFound name) ∨
      (archive.content? name = some (.failed failure) ∧ failure.IsOfContent) := by
  by_cases hmem : name ∈ archive.names
  · have hc := content?_of_read_error hmem hr
    exact .inr ⟨hc, h name failure hc⟩
  · exact .inl ⟨hmem, Except.error.inj (hr.symm.trans (read_of_notMem hmem))⟩

/-- The text of a list has a line that includes another list: behind the mark stands its name, which
ends at the first space or at the end of the line. -/
def ShowsInclusion (archive : Archive) (name other : String) : Prop :=
  ∃ text rest, archive.read name = .ok text ∧ other ≠ "" ∧ ' ' ∉ other.toList ∧
    (rest = [] ∨ rest.head? = some ' ') ∧
    "include:".toList ++ other.toList ++ rest ∈ shownLines text

/-- What is wrong with one inclusion itself, where the names on the way to it are given. -/
def inclusionFault? (archive : Archive) (path : List String) (name : String) : Option Failure :=
  if name ∈ path then some (.cyclicInclude (path ++ [name]))
  else match archive.content? name with
    | none => some (.includedListNotFound name path.getLast?)
    | some (.failed failure) => some failure
    | some (.text _) => none

/-- A fault that is met where the inclusions of a list are followed, given the names on the way to
that list and those that it includes. The positions tell which inclusion is followed in each
list. -/
inductive Fault (archive : Archive) :
    List String → List String → List Nat → Failure → Prop where
  | here {path : List String} {name : String} {failure : Failure} (names : List String)
      (hf : archive.inclusionFault? path name = some failure) :
    Fault archive path (name :: names) [0] failure
  | within {path : List String} {name text : String} {positions : List Nat} {failure : Failure}
      (names : List String) (hp : name ∉ path) (hr : archive.read name = .ok text)
      (h : Fault archive (path ++ [name]) (inclusionsOf (Line.ofText text)) positions failure) :
    Fault archive path (name :: names) (0 :: positions) failure
  /-- The fault is met behind the first inclusion. -/
  | later {path names : List String} {position : Nat} {positions : List Nat} {failure : Failure}
      (name : String) (h : Fault archive path names (position :: positions) failure) :
    Fault archive path (name :: names) ((position + 1) :: positions) failure

/-- A fault that is met before every other one: where the ways part, it lies behind an earlier
inclusion. -/
def FirstFault (archive : Archive) (path names : List String) (failure : Failure) : Prop :=
  ∃ positions, archive.Fault path names positions failure ∧
    ∀ other report, archive.Fault path names other report →
      other = positions ∨ List.Lex (· < ·) positions other

end Archive

namespace Line

theorem inclusionMark_prefix_of_readTrimmed {line : List Char} {name text : String}
    (h : readTrimmed line = .inclusion name text) : inclusionMark <+: line := by
  unfold readTrimmed at h
  split at h
  · cases h
  · cases h
  · split at h
    · rename_i hmark
      exact List.isPrefixOf_iff_prefix.mp hmark
    · unfold readRule at h
      dsimp only at h
      split at h <;> cases h

theorem inclusion?_readTrimmed_iff {line : List Char} {name : String} :
    (readTrimmed line).inclusion? = some name ↔ name ≠ "" ∧ ' ' ∉ name.toList ∧
      ∃ rest : List Char, (rest = [] ∨ rest.head? = some ' ') ∧
        inclusionMark ++ name.toList ++ rest = line := by
  constructor
  · intro h
    obtain ⟨hn, hline⟩ := readTrimmed_of_inclusion? h
    obtain ⟨more, rfl⟩ := inclusionMark_prefix_of_readTrimmed hline
    have hmark : ∀ c ∈ inclusionMark, decide (c ≠ ' ') = true := List.all_eq_true.mp (by decide)
    have htoken : token (inclusionMark ++ more) =
        inclusionMark ++ more.takeWhile (· ≠ ' ') := List.takeWhile_append_of_pos hmark
    have hname : name.toList = more.takeWhile (· ≠ ' ') := by
      rw [readTrimmed_append, htoken, List.drop_left] at hline
      rw [← (Line.inclusion.inj hline).1, String.toList_ofList]
    refine ⟨hn, ?_, more.dropWhile (· ≠ ' '), ?_, ?_⟩
    · rw [hname]
      intro hmem
      exact absurd rfl (of_decide_eq_true (List.all_eq_true.mp List.all_takeWhile ' ' hmem))
    · have hstop := List.head?_dropWhile_not (fun c => decide (c ≠ ' ')) more
      cases hhead : (more.dropWhile (· ≠ ' ')).head? with
      | none => exact .inl (List.head?_eq_none_iff.mp hhead)
      | some c =>
        rw [hhead] at hstop
        have hc : c = ' ' := by simpa using hstop
        exact .inr (congrArg some hc)
    · rw [hname, List.append_assoc, List.takeWhile_append_dropWhile]
  · rintro ⟨hn, hspace, rest, hrest, rfl⟩
    exact inclusion?_readTrimmed_append hn hspace hrest

theorem mem_inclusionsOf_ofText {text name : String} :
    name ∈ inclusionsOf (ofText text) ↔ name ≠ "" ∧ ' ' ∉ name.toList ∧
      ∃ rest : List Char, (rest = [] ∨ rest.head? = some ' ') ∧
        "include:".toList ++ name.toList ++ rest ∈ shownLines text := by
  have hshown : name ∈ inclusionsOf (ofText text) ↔
      ∃ line ∈ shownLines text, (readTrimmed line).inclusion? = some name := by
    simp only [inclusionsOf, ofText, shownLines, List.mem_filterMap, List.mem_map, List.mem_filter]
    constructor
    · rintro ⟨-, ⟨piece, hpiece, rfl⟩, hname⟩
      have hblank : Text.trim piece ≠ [] := by
        intro hempty
        rw [read, hempty] at hname
        cases hname
      exact ⟨Text.trim piece, ⟨⟨piece, hpiece, rfl⟩, decide_eq_true hblank⟩, hname⟩
    · rintro ⟨-, ⟨⟨piece, hpiece, rfl⟩, -⟩, hname⟩
      exact ⟨read piece, ⟨piece, hpiece, rfl⟩, hname⟩
  rw [hshown]
  constructor
  · rintro ⟨line, hline, hname⟩
    obtain ⟨hn, hspace, rest, hrest, rfl⟩ := inclusion?_readTrimmed_iff.mp hname
    exact ⟨hn, hspace, rest, hrest, hline⟩
  · rintro ⟨hn, hspace, rest, hrest, hline⟩
    exact ⟨_, hline, inclusion?_readTrimmed_append hn hspace hrest⟩

end Line

namespace Archive

variable {archive : Archive}

theorem includes_eq_showsInclusion : archive.Includes = archive.ShowsInclusion := by
  funext name other
  apply propext
  constructor
  · rintro ⟨text, hr, hmem⟩
    obtain ⟨hn, hspace, rest, hrest, hline⟩ := Line.mem_inclusionsOf_ofText.mp hmem
    exact ⟨text, rest, hr, hn, hspace, hrest, hline⟩
  · rintro ⟨text, rest, hr, hn, hspace, hrest, hline⟩
    exact ⟨text, hr, Line.mem_inclusionsOf_ofText.mpr ⟨hn, hspace, rest, hrest, hline⟩⟩

section Faults

variable {path names : List String} {name : String} {failure : Failure} {positions : List Nat}

theorem inclusionFault?_of_mem (h : name ∈ path) :
    archive.inclusionFault? path name = some (.cyclicInclude (path ++ [name])) := if_pos h

theorem inclusionFault?_of_error (h : archive.FailsForContent) (hp : name ∉ path)
    (hr : archive.read name = .error failure) :
    archive.inclusionFault? path name = some (failure.whenIncluded path name) := by
  rw [inclusionFault?, if_neg hp]
  rcases h.of_read_error hr with ⟨habsent, rfl⟩ | ⟨hc, hkind⟩
  · have hnone : archive.content? name = none := by
      by_contra hsome
      exact habsent ((mem_names_iff archive name).mpr (Option.ne_none_iff_exists'.mp hsome))
    rw [hnone]
    rfl
  · rw [hc, hkind.whenIncluded_eq path name]

theorem inclusionFault?_eq_none_iff :
    archive.inclusionFault? path name = none ↔
      name ∉ path ∧ ∃ text, archive.read name = .ok text := by
  unfold inclusionFault? read
  by_cases hp : name ∈ path
  · simp [hp]
  · rw [if_neg hp]
    split <;> simp_all

theorem inclusionFault?_eq_some (h : archive.inclusionFault? path name = some failure) :
    (name ∈ path ∧ failure = .cyclicInclude (path ++ [name])) ∨
      (name ∉ archive.names ∧ failure = .includedListNotFound name path.getLast?) ∨
      archive.content? name = some (.failed failure) := by
  unfold inclusionFault? at h
  split at h
  · exact .inl ⟨‹_›, (Option.some.inj h).symm⟩
  · split at h
    · rename_i hc
      refine .inr (.inl ⟨?_, (Option.some.inj h).symm⟩)
      rw [mem_names_iff, hc]
      rintro ⟨content, hcontent⟩
      cases hcontent
    · rename_i hc
      exact .inr (.inr (hc.trans (congrArg _ (congrArg _ (Option.some.inj h)))))
    · cases h

theorem Fault.exists_eq_cons (h : archive.Fault path names positions failure) :
    ∃ position further, positions = position :: further := by
  cases h <;> exact ⟨_, _, rfl⟩

theorem Fault.of_read {text : String} (h : archive.Fault path (name :: names) positions failure)
    (hp : name ∉ path) (hr : archive.read name = .ok text) :
    (∃ further, positions = 0 :: further ∧
        archive.Fault (path ++ [name]) (inclusionsOf (Line.ofText text)) further failure) ∨
      ∃ position further, positions = (position + 1) :: further ∧
        archive.Fault path names (position :: further) failure := by
  cases h with
  | here _ hf => cases hf.symm.trans (inclusionFault?_eq_none_iff.mpr ⟨hp, text, hr⟩)
  | within _ _ hother h =>
    rw [Except.ok.inj (hother.symm.trans hr)] at h
    exact .inl ⟨_, rfl, h⟩
  | later _ h => exact .inr ⟨_, _, rfl, h⟩

theorem Fault.failure_unique (h : archive.Fault path names positions failure) {other : Failure}
    (ho : archive.Fault path names positions other) : failure = other := by
  induction h with
  | here names hf =>
    cases ho with
    | here _ hother => exact Option.some.inj (hf.symm.trans hother)
    | within _ _ _ h =>
      obtain ⟨_, _, hnil⟩ := h.exists_eq_cons
      cases hnil
  | within names hp hr h ih =>
    cases ho with
    | here _ _ =>
      obtain ⟨_, _, hnil⟩ := h.exists_eq_cons
      cases hnil
    | within _ _ hother h' =>
      rw [Except.ok.inj (hother.symm.trans hr)] at h'
      exact ih h'
  | later next h ih =>
    cases ho with
    | later _ h' => exact ih h'

theorem FirstFault.unique {other : Failure} (h : archive.FirstFault path names failure)
    (ho : archive.FirstFault path names other) : failure = other := by
  obtain ⟨positions, hfault, hfirst⟩ := h
  obtain ⟨others, hother, hbefore⟩ := ho
  have hsame : positions = others := by
    rcases hfirst others other hother with heq | hlt
    · exact heq.symm
    · rcases hbefore positions failure hfault with heq | hgt
      · exact heq
      · exact absurd hgt (List.lt_asymm hlt)
  exact hfault.failure_unique (hsame ▸ hother)

theorem FirstFault.here (names : List String)
    (hf : archive.inclusionFault? path name = some failure) :
    archive.FirstFault path (name :: names) failure := by
  refine ⟨[0], .here names hf, ?_⟩
  intro other report ho
  cases ho with
  | here _ _ => exact .inl rfl
  | within _ hp hr _ =>
    cases hf.symm.trans (inclusionFault?_eq_none_iff.mpr ⟨hp, _, hr⟩)
  | later _ _ => exact .inr (.rel (Nat.succ_pos _))

theorem FirstFault.within {text : String} (names : List String) (hp : name ∉ path)
    (hr : archive.read name = .ok text)
    (h : archive.FirstFault (path ++ [name]) (inclusionsOf (Line.ofText text)) failure) :
    archive.FirstFault path (name :: names) failure := by
  obtain ⟨positions, hfault, hfirst⟩ := h
  refine ⟨0 :: positions, .within names hp hr hfault, ?_⟩
  intro other report ho
  rcases ho.of_read hp hr with ⟨inner, rfl, hinner⟩ | ⟨place, behind, rfl, -⟩
  · rcases hfirst inner report hinner with rfl | hlt
    · exact .inl rfl
    · exact .inr (.cons hlt)
  · exact .inr (.rel (Nat.succ_pos place))

theorem FirstFault.later {text : String} (hp : name ∉ path) (hr : archive.read name = .ok text)
    (hnone : ∀ positions report, ¬ archive.Fault (path ++ [name])
      (inclusionsOf (Line.ofText text)) positions report)
    (h : archive.FirstFault path names failure) :
    archive.FirstFault path (name :: names) failure := by
  obtain ⟨positions, hfault, hfirst⟩ := h
  obtain ⟨position, further, rfl⟩ := hfault.exists_eq_cons
  refine ⟨(position + 1) :: further, .later name hfault, ?_⟩
  intro other report ho
  rcases ho.of_read hp hr with ⟨inner, -, hinner⟩ | ⟨place, behind, rfl, hbehind⟩
  · exact absurd hinner (hnone inner report)
  · -- Behind one inclusion more, every place is one further on.
    rcases hfirst _ report hbehind with heq | hlt
    · obtain ⟨rfl, rfl⟩ := List.cons.inj heq
      exact .inl rfl
    · cases hlt with
      | rel hlt => exact .inr (.rel (Nat.succ_lt_succ hlt))
      | cons hlt => exact .inr (.cons hlt)

end Faults

section Expansion

variable {filter : String} {path : List String} {lines : List Line}

theorem not_fault_of_expand_ok {items : List Item}
    (h : (expand archive filter path lines).result = .ok items) (positions : List Nat)
    (report : Failure) : ¬ archive.Fault path (inclusionsOf lines) positions report := by
  induction path, lines using expansion_induction archive generalizing items positions with
  | nil path =>
    intro hfault
    cases hfault
  | skip path line lines hline ih =>
    obtain ⟨steps, -, he⟩ := expand_cons_of_none hline archive filter path lines
    rw [he] at h
    obtain ⟨rest, hrest, -⟩ := Reading.result_map_eq_ok.mp h
    rw [inclusionsOf_cons_of_none hline]
    exact ih hrest positions
  | cyclic path name line lines hn hp =>
    exact absurd hp ((result_expand_inclusion_eq_ok hn).mp h).1
  | unread path name line lines failure hn hp hr =>
    obtain ⟨-, text, -, -, hread, -⟩ := (result_expand_inclusion_eq_ok hn).mp h
    cases hr.symm.trans hread
  | read path name line lines text hn hp hr ihsub ihrest =>
    obtain ⟨-, own, inner, rest, hown, hinner, hrest, -⟩ :=
      (result_expand_inclusion_eq_ok hn).mp h
    rw [Except.ok.inj (hown.symm.trans hr)] at hinner
    rw [inclusionsOf_cons_inclusion hn]
    intro hfault
    rcases hfault.of_read hp hr with ⟨further, -, hsub⟩ | ⟨position, further, -, hlater⟩
    · exact ihsub hinner further hsub
    · exact ihrest hrest _ hlater

theorem firstFault_of_expand_error (hcontent : archive.FailsForContent) {failure : Failure}
    (h : (expand archive filter path lines).result = .error failure) :
    archive.FirstFault path (inclusionsOf lines) failure := by
  -- Along the expansion, which goes through the inclusions in the order in which faults are met.
  induction path, lines using expansion_induction archive with
  | nil path =>
    rw [expand_nil] at h
    cases h
  | skip path line lines hline ih =>
    obtain ⟨steps, -, he⟩ := expand_cons_of_none hline archive filter path lines
    rw [he] at h
    rw [inclusionsOf_cons_of_none hline]
    exact ih (Reading.result_map_eq_error.mp h)
  | cyclic path name line lines hn hp =>
    rw [expand_inclusion_cyclic archive filter hn (by simpa using hp)] at h
    rw [inclusionsOf_cons_inclusion hn, ← Except.error.inj h]
    exact .here _ (inclusionFault?_of_mem hp)
  | unread path name line lines own hn hp hr =>
    rw [expand_inclusion_unread filter hn (by simpa using hp) hr] at h
    rw [inclusionsOf_cons_inclusion hn, ← Except.error.inj h]
    exact .here _ (inclusionFault?_of_error hcontent hp hr)
  | read path name line lines text hn hp hr ihsub ihrest =>
    rw [expand_inclusion_read filter hn (by simpa using hp) hr] at h
    rw [inclusionsOf_cons_inclusion hn]
    rcases Reading.result_bind_eq_error.mp h with hsub | ⟨inner, hinner, hrest⟩
    · exact (ihsub hsub).within _ hp hr
    · -- The included list is expanded as a whole, so no fault lies in it.
      exact (ihrest (Reading.result_map_eq_error.mp hrest)).later hp hr
        (not_fault_of_expand_ok hinner)

/-- The expansion fails exactly with the fault that is met first. -/
theorem expand_error_iff_firstFault (hcontent : archive.FailsForContent) {failure : Failure} :
    (expand archive filter path lines).result = .error failure ↔
      archive.FirstFault path (inclusionsOf lines) failure := by
  constructor
  · exact firstFault_of_expand_error hcontent
  · intro h
    cases hresult : (expand archive filter path lines).result with
    | ok items =>
      obtain ⟨positions, hfault, -⟩ := h
      exact absurd hfault (not_fault_of_expand_ok hresult positions failure)
    | error own => rw [(firstFault_of_expand_error hcontent hresult).unique h]

end Expansion

section Ways

/-- The names on a way that leads from a list along inclusions to the one whose lines are followed.
All of them are there, and none stands on it twice. -/
structure IsWay (archive : Archive) (name : String) (path names : List String) : Prop where
  head : path.head? = some name
  nodup : path.Nodup
  chain : path.IsChain archive.Includes
  present : ∀ member ∈ path, member ∈ archive.names
  last : ∃ list text, path.getLast? = some list ∧ archive.read list = .ok text ∧
    names ⊆ inclusionsOf (Line.ofText text)

variable {name : String} {path names : List String}

theorem IsWay.start {text : String} (hr : archive.read name = .ok text) :
    archive.IsWay name [name] (inclusionsOf (Line.ofText text)) where
  head := rfl
  nodup := List.nodup_singleton name
  chain := .singleton name
  present member hm := by
    rw [List.mem_singleton.mp hm]
    exact mem_names_of_read hr
  last := ⟨name, text, rfl, hr, List.Subset.refl _⟩

theorem IsWay.tail {next : String} (h : archive.IsWay name path (next :: names)) :
    archive.IsWay name path names := by
  obtain ⟨list, text, hlast, hr, hsub⟩ := h.last
  have hfewer : names ⊆ inclusionsOf (Line.ofText text) := List.subset_of_cons_subset hsub
  exact ⟨h.head, h.nodup, h.chain, h.present, list, text, hlast, hr, hfewer⟩

theorem IsWay.includes {next : String} (h : archive.IsWay name path names) (hn : next ∈ names) :
    ∃ list, path.getLast? = some list ∧ archive.Includes list next := by
  obtain ⟨list, text, hlast, hr, hsub⟩ := h.last
  exact ⟨list, hlast, text, hr, hsub hn⟩

theorem IsWay.isChain_append {next : String} (h : archive.IsWay name path names)
    (hn : next ∈ names) : (path ++ [next]).IsChain archive.Includes := by
  obtain ⟨list, hlast, hi⟩ := h.includes hn
  rw [List.isChain_append]
  refine ⟨h.chain, .singleton next, ?_⟩
  intro x hx y hy
  rw [hlast] at hx
  rw [← Option.some.inj hx, ← Option.some.inj hy]
  exact hi

theorem IsWay.further {next text : String} (h : archive.IsWay name path names)
    (hn : next ∈ names) (hp : next ∉ path) (hr : archive.read next = .ok text) :
    archive.IsWay name (path ++ [next]) (inclusionsOf (Line.ofText text)) where
  head := by rw [List.head?_append, h.head, Option.some_or]
  nodup := by
    rw [← List.concat_eq_append]
    exact h.nodup.concat hp
  chain := h.isChain_append hn
  present := by
    intro member hm
    rcases List.mem_append.mp hm with hm | hm
    · exact h.present member hm
    · rw [List.mem_singleton.mp hm]
      exact mem_names_of_read hr
  last := ⟨next, text, List.getLast?_concat, hr, List.Subset.refl _⟩

theorem Fault.exists_way {positions : List Nat} {failure : Failure}
    (h : archive.Fault path names positions failure) (hway : archive.IsWay name path names) :
    ∃ further members next, archive.IsWay name further members ∧ next ∈ members ∧
      archive.inclusionFault? further next = some failure := by
  induction h with
  | here names hf => exact ⟨_, _, _, hway, List.mem_cons_self, hf⟩
  | within names hp hr _ ih => exact ih (hway.further List.mem_cons_self hp hr)
  | later next _ ih => exact ih hway.tail

theorem IsWay.reaches {list : String} (h : archive.IsWay name path names)
    (hlast : path.getLast? = some list) : archive.Reaches name list := by
  obtain ⟨more, rfl⟩ := List.head?_eq_some_iff.mp h.head
  apply List.relationReflTransGen_of_exists_isChain_cons more h.chain
  rw [List.getLast?_eq_some_getLast (List.cons_ne_nil name more)] at hlast
  exact Option.some.inj hlast

end Ways

end Archive

theorem expandMember_error_iff_firstFault {archive : Archive} (h : archive.FailsForContent)
    (filter : String) {name text : String} (hr : archive.read name = .ok text) (failure : Failure) :
    (expandMember archive filter name).result = .error failure ↔
      archive.FirstFault [name] (inclusionsOf (Line.ofText text)) failure := by
  rw [result_expandMember_of_read hr]
  exact Archive.expand_error_iff_firstFault h

/-- A list that cannot be read itself is reported neither as a cycle nor as a missing inclusion, so
behind such a report there is a way to an inclusion that is wrong. -/
theorem exists_way_of_expandMember_error {archive : Archive} (h : archive.FailsForContent)
    {filter name : String} {failure : Failure}
    (hresult : (expandMember archive filter name).result = .error failure)
    (hkind : ¬ failure.IsOfContent) (hmissing : failure ≠ .listNotFound name) :
    ∃ path names next, archive.IsWay name path names ∧ next ∈ names ∧
      archive.inclusionFault? path next = some failure := by
  cases hr : archive.read name with
  | error own =>
    rw [expandMember_of_unread filter hr] at hresult
    rw [Except.error.inj hresult] at hr
    rcases h.of_read_error hr with ⟨-, he⟩ | ⟨-, hown⟩
    · exact absurd he hmissing
    · exact absurd hown hkind
  | ok text =>
    obtain ⟨positions, hfault, -⟩ :=
      (expandMember_error_iff_firstFault h filter hr failure).mp hresult
    exact hfault.exists_way (.start hr)

/-- The report of a failed expansion points at the fault that is met first. A reported cycle is a
way from the list that was asked for along inclusions back to a list on that way, and a list
reported as missing is not there and is included by the list that is named beside it. -/
theorem expandMember_reports_first_fault {archive : Archive} (h : archive.FailsForContent)
    (filter name : String) :
    (∀ chain, (expandMember archive filter name).result = .error (.cyclicInclude chain) →
      ∃ path last, chain = path ++ [last] ∧ path.head? = some name ∧ path.Nodup ∧
        (∀ member ∈ path, member ∈ archive.names) ∧ chain.IsChain archive.ShowsInclusion ∧
        last ∈ path) ∧
      (∀ member origin,
        (expandMember archive filter name).result = .error (.includedListNotFound member origin) →
        member ∉ archive.names ∧ ∃ list ∈ archive.names, origin = some list ∧
          Relation.ReflTransGen archive.ShowsInclusion name list ∧
          archive.ShowsInclusion list member) ∧
      ∀ text, archive.read name = .ok text → ∀ failure,
        (expandMember archive filter name).result = .error failure ↔
          archive.FirstFault [name] (inclusionsOf (Line.ofText text)) failure := by
  rw [← Archive.includes_eq_showsInclusion]
  -- Behind either report stands a fault at the end of a way, and the report tells which of the
  -- three kinds of fault it is.
  refine ⟨?_, ?_, fun text hr => expandMember_error_iff_firstFault h filter hr⟩
  · intro chain hresult
    obtain ⟨path, names, next, hw, hnext, hfault⟩ :=
      exists_way_of_expandMember_error h hresult (fun hkind => hkind) (by intro he; cases he)
    rcases Archive.inclusionFault?_eq_some hfault with ⟨hmem, he⟩ | ⟨-, he⟩ | hc
    · refine ⟨path, next, Failure.cyclicInclude.inj he, hw.head, hw.nodup, hw.present, ?_, hmem⟩
      rw [Failure.cyclicInclude.inj he]
      exact hw.isChain_append hnext
    · cases he
    · exact (h _ _ hc).elim
  · intro member origin hresult
    obtain ⟨path, names, next, hw, hnext, hfault⟩ :=
      exists_way_of_expandMember_error h hresult (fun hkind => hkind) (by intro he; cases he)
    rcases Archive.inclusionFault?_eq_some hfault with ⟨-, he⟩ | ⟨habsent, he⟩ | hc
    · cases he
    · obtain ⟨list, hlast, hi⟩ := hw.includes hnext
      obtain ⟨rfl, rfl⟩ := Failure.includedListNotFound.inj he
      have hlist : list ∈ archive.names := hw.present list (List.mem_of_getLast? hlast)
      exact ⟨habsent, list, hlist, hlast, hw.reaches hlast, hi⟩
    · exact (h _ _ hc).elim

/-- Lists with several faults at different depths: some that are included are not there, and some
lead back to a list on the way, not always to the first one. -/
def tangled : Archive :=
  ⟨[("start", .text "include:left @x\n# note\ninclude:gone\ninclude:start"),
    ("left", .text "full:a.org\ninclude:deep # why\ninclude:start"),
    ("deep", .text "include:lost\ninclude:left"), ("round", .text "include:turn\ninclude:lost"),
    ("turn", .text "include:back"), ("back", .text "domain:\ninclude:turn\ninclude:none")]⟩

theorem expandMember_reports_first_fault_tangled :
    tangled.FailsForContent ∧
      (expandMember tangled "" "start").result = .error (.includedListNotFound "lost" (some "deep")) ∧
      "lost" ∉ tangled.names ∧ tangled.ShowsInclusion "deep" "lost" ∧
      (expandMember tangled "cn" "round").result =
        .error (.cyclicInclude ["round", "turn", "back", "turn"]) ∧
      ["round", "turn", "back", "turn"].IsChain tangled.ShowsInclusion := by
  have htexts : tangled.FailsForContent := Archive.failsForContent_of_texts (by simp [tangled])
  -- The first report: a fault two lists further down comes before those of the first list itself.
  have hstart : tangled.read "start" = .ok "include:left @x\n# note\ninclude:gone\ninclude:start" :=
    rfl
  have hleft : tangled.read "left" = .ok "full:a.org\ninclude:deep # why\ninclude:start" := rfl
  have hdeep : tangled.read "deep" = .ok "include:lost\ninclude:left" := rfl
  have hlost : tangled.read "lost" = .error (.listNotFound "lost") := rfl
  have hstartLines : Line.ofText "include:left @x\n# note\ninclude:gone\ninclude:start" =
      [.inclusion "left" "include:left @x", .comment "# note", .inclusion "gone" "include:gone",
        .inclusion "start" "include:start"] := by decide +kernel
  have hleftLines : Line.ofText "full:a.org\ninclude:deep # why\ninclude:start" =
      [.rule ⟨.exact, "a.org", ""⟩, .inclusion "deep" "include:deep # why",
        .inclusion "start" "include:start"] := by decide +kernel
  have hdeepLines : Line.ofText "include:lost\ninclude:left" =
      [.inclusion "lost" "include:lost", .inclusion "left" "include:left"] := by decide +kernel
  have hmissing : (expandMember tangled "" "start").result =
      .error (.includedListNotFound "lost" (some "deep")) := by
    rw [result_expandMember_of_read hstart, hstartLines,
      expand_inclusion_read "" (by decide) (by decide) hleft, hleftLines,
      expand_rule_of_selected _ _ _ (Rule.isSelectedBy_empty _),
      expand_inclusion_read "" (by decide) (by decide) hdeep, hdeepLines,
      expand_inclusion_unread "" (by decide) (by decide) hlost]
    rfl
  -- The second report: the way comes back to a list on it that is not the first one.
  have hround : tangled.read "round" = .ok "include:turn\ninclude:lost" := rfl
  have hturn : tangled.read "turn" = .ok "include:back" := rfl
  have hback : tangled.read "back" = .ok "domain:\ninclude:turn\ninclude:none" := rfl
  have hroundLines : Line.ofText "include:turn\ninclude:lost" =
      [.inclusion "turn" "include:turn", .inclusion "lost" "include:lost"] := by decide +kernel
  have hturnLines : Line.ofText "include:back" = [.inclusion "back" "include:back"] := by
    decide +kernel
  have hbackLines : Line.ofText "domain:\ninclude:turn\ninclude:none" =
      [.nothing, .inclusion "turn" "include:turn", .inclusion "none" "include:none"] := by
    decide +kernel
  have hcyclic : (expandMember tangled "cn" "round").result =
      .error (.cyclicInclude ["round", "turn", "back", "turn"]) := by
    rw [result_expandMember_of_read hround, hroundLines,
      expand_inclusion_read "cn" (by decide) (by decide) hturn, hturnLines,
      expand_inclusion_read "cn" (by decide) (by decide) hback, hbackLines, expand_nothing,
      expand_inclusion_cyclic _ "cn" (by decide) (by decide)]
    rfl
  obtain ⟨-, hblamed, -⟩ := expandMember_reports_first_fault htexts "" "start"
  obtain ⟨hway, -, -⟩ := expandMember_reports_first_fault htexts "cn" "round"
  obtain ⟨habsent, list, -, horigin, -, hshown⟩ := hblamed _ _ hmissing
  obtain ⟨path, last, hchain, -, -, -, halong, -⟩ := hway _ hcyclic
  rw [← Option.some.inj horigin] at hshown
  exact ⟨htexts, hmissing, habsent, hshown, hcyclic, halong⟩

end DomainRules
