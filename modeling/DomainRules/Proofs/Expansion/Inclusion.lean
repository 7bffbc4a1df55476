import DomainRules.Proofs.Expansion.Basic
import Mathlib.Logic.Relation

namespace DomainRules

open Relation (ReflTransGen TransGen)

/-- The list that a line includes. A line that includes a list without a name says nothing. -/
def Line.inclusion? : Line → Option String
  | .inclusion name _ => if name = "" then none else some name
  | _ => none

def inclusionsOf (lines : List Line) : List String := lines.filterMap Line.inclusion?

def inclusionCount (lines : List Line) : Nat := lines.countP fun line => line matches .inclusion ..

theorem inclusionCount_cons (line : Line) (lines : List Line) :
    inclusionCount (line :: lines) = inclusionCount [line] + inclusionCount lines := by
  have happend : line :: lines = [line] ++ lines := rfl
  rw [happend]
  exact List.countP_append

theorem inclusionsOf_cons_of_none {line : Line} (h : line.inclusion? = none)
    (lines : List Line) : inclusionsOf (line :: lines) = inclusionsOf lines :=
  List.filterMap_cons_none h

theorem inclusionsOf_cons_inclusion {name : String} (hn : name ≠ "") (line : String)
    (lines : List Line) :
    inclusionsOf (.inclusion name line :: lines) = name :: inclusionsOf lines :=
  List.filterMap_cons_some (if_neg hn)

namespace Archive

variable (archive : Archive)

/-- A list that can be read includes another one, which may be missing. -/
def Includes (name other : String) : Prop :=
  ∃ text, archive.read name = .ok text ∧ other ∈ inclusionsOf (Line.ofText text)

abbrev Reaches (name other : String) : Prop := ReflTransGen archive.Includes name other

/-- All that a list reaches can be read, and no list that it reaches includes itself, directly or
through others. -/
structure Resolves (name : String) : Prop where
  readable : ∀ member, archive.Reaches name member → ∃ text, archive.read member = .ok text
  acyclic : ∀ member, archive.Reaches name member → ¬ TransGen archive.Includes member member

variable {archive}

theorem Includes.mem_of_read {name other text : String} (h : archive.Includes name other)
    (hr : archive.read name = .ok text) : other ∈ inclusionsOf (Line.ofText text) := by
  obtain ⟨own, hown, hin⟩ := h
  have htext : own = text := Except.ok.inj (hown.symm.trans hr)
  rwa [htext] at hin

theorem Resolves.of_reaches {name other : String} (h : archive.Resolves name)
    (hr : archive.Reaches name other) : archive.Resolves other where
  readable member hm := h.readable member (hr.trans hm)
  acyclic member hm := h.acyclic member (hr.trans hm)

/-- A list is not reached from what it includes, or it would be on a cycle. -/
theorem Resolves.not_reaches_of_includes {name other : String} (h : archive.Resolves name)
    (hi : archive.Includes name other) : ¬ archive.Reaches other name :=
  fun hback => h.acyclic name .refl (.head' hi hback)

end Archive

section Lines

variable {archive : Archive} {filter : String} {path : List String} {lines : List Line}

def Line.ownItems (filter : String) : Line → List Item
  | .comment text => [.comment text]
  | .rule r => if r.isSelectedBy filter then [.rule r] else []
  | _ => []

theorem expand_cons_of_none {line : Line} (h : line.inclusion? = none) (archive : Archive)
    (filter : String) (path : List String) (lines : List Line) :
    ∃ steps : List Step, steps.length ≤ inclusionCount [line] ∧
      expand archive filter path (line :: lines) =
        ((expand archive filter path lines).map (line.ownItems filter ++ ·)).after steps := by
  -- A turn passes only where an inclusion without a name is skipped.
  have hsilent (h : expand archive filter path (line :: lines) =
      (expand archive filter path lines).map (line.ownItems filter ++ ·)) :
      ∃ steps : List Step, steps.length ≤ inclusionCount [line] ∧
        expand archive filter path (line :: lines) =
          ((expand archive filter path lines).map (line.ownItems filter ++ ·)).after steps := by
    refine ⟨[], Nat.zero_le _, ?_⟩
    rw [h, Reading.after_nil]
  cases line with
  | nothing => exact hsilent (by simp [Line.ownItems])
  | comment text => exact hsilent (by simp [Line.ownItems])
  | rule rule =>
    cases hs : rule.isSelectedBy filter with
    | true =>
      have he := expand_rule_of_selected archive filter path hs lines
      exact hsilent (by simpa [Line.ownItems, hs] using he)
    | false =>
      have he := expand_rule_of_not_selected archive filter path hs lines
      exact hsilent (by simpa [Line.ownItems, hs] using he)
  | inclusion name text =>
    have hn : name = "" := by
      by_cases hn : name = ""
      · exact hn
      · rw [Line.inclusion?, if_neg hn] at h
        cases h
    have he := expand_inclusion_empty archive filter path text lines
    exact ⟨[.turn], Nat.le_refl 1, by simpa [Line.ownItems, hn] using he⟩

/-- Induction along an expansion: through the lines of a list, and for each list that it includes
and that is new on the path through the lines of that one. -/
theorem expansion_induction (archive : Archive) {motive : List String → List Line → Prop}
    (nil : ∀ path, motive path [])
    (skip : ∀ path line lines, Line.inclusion? line = none → motive path lines →
      motive path (line :: lines))
    (cyclic : ∀ path name line lines, name ≠ "" → name ∈ path →
      motive path (.inclusion name line :: lines))
    (unread : ∀ path name line lines failure, name ≠ "" → name ∉ path →
      archive.read name = .error failure → motive path (.inclusion name line :: lines))
    (read : ∀ path name line lines text, name ≠ "" → name ∉ path →
      archive.read name = .ok text → motive (path ++ [name]) (Line.ofText text) →
      motive path lines → motive path (.inclusion name line :: lines)) :
    ∀ path lines, motive path lines := by
  intro path lines
  fun_induction expand archive "" path lines with
  | case1 path => exact nil path
  | case2 path lines ih => exact skip path .nothing lines rfl ih
  | case3 path text lines ih => exact skip path (.comment text) lines rfl ih
  | case4 path rule lines hs ih => exact skip path (.rule rule) lines rfl ih
  | case5 path rule lines hs ih => exact skip path (.rule rule) lines rfl ih
  | case6 path line lines ih => exact skip path (.inclusion "" line) lines rfl ih
  | case7 path name line lines hn hp => exact cyclic path name line lines hn (by simpa using hp)
  | case8 path name line lines hn hp failure hr =>
    exact unread path name line lines failure hn (by simpa using hp) hr
  | case9 path name line lines hn hp text hr ihsub ihrest =>
    exact read path name line lines text hn (by simpa using hp) hr ihsub ihrest

theorem expand_inclusion_of_ok {items : List Item}
    (h : (expand archive filter path lines).result = .ok items) {name : String}
    (hn : name ∈ inclusionsOf lines) :
    name ∉ path ∧ ∃ text inner, archive.read name = .ok text ∧
      (expand archive filter (path ++ [name]) (Line.ofText text)).result = .ok inner := by
  induction path, lines using expansion_induction archive generalizing items with
  | nil path => cases hn
  | skip path line lines hline ih =>
    obtain ⟨steps, -, he⟩ := expand_cons_of_none hline archive filter path lines
    rw [he] at h
    obtain ⟨rest, hrest, -⟩ := Reading.result_map_eq_ok.mp h
    exact ih hrest (inclusionsOf_cons_of_none hline lines ▸ hn)
  | cyclic path other line lines ho hp =>
    exact absurd hp ((result_expand_inclusion_eq_ok ho).mp h).1
  | unread path other line lines failure ho hp hr =>
    obtain ⟨-, text, -, -, hread, -⟩ := (result_expand_inclusion_eq_ok ho).mp h
    cases hr.symm.trans hread
  | read path other line lines text ho hp hr ihsub ihrest =>
    obtain ⟨-, own, inner, rest, hown, hinner, hrest, -⟩ :=
      (result_expand_inclusion_eq_ok ho).mp h
    rw [inclusionsOf_cons_inclusion ho] at hn
    rcases List.mem_cons.mp hn with rfl | hlater
    · exact ⟨hp, own, inner, hown, hinner⟩
    · exact ihrest hrest hlater

/-- The list of a name is expanded at the end of a path that goes on from this one, and stands on it
for the first time. -/
def ExpandedBeyond (archive : Archive) (filter : String) (path : List String) (name : String) :
    Prop :=
  name ∉ path ∧ ∃ further text items, archive.read name = .ok text ∧
    (expand archive filter (path ++ further ++ [name]) (Line.ofText text)).result = .ok items

/-- While a list is expanded, so is all that it reaches, each time beyond its path. -/
theorem expandedBeyond_of_reaches {name text : String} {items : List Item}
    (hr : archive.read name = .ok text)
    (h : (expand archive filter path (Line.ofText text)).result = .ok items) {member : String}
    (hreach : TransGen archive.Includes name member) :
    ExpandedBeyond archive filter path member := by
  induction hreach with
  | single hi =>
    obtain ⟨hnew, inner, deeper, hinner, hdeeper⟩ := expand_inclusion_of_ok h (hi.mem_of_read hr)
    refine ⟨hnew, [], inner, deeper, hinner, ?_⟩
    rwa [List.append_nil]
  | @tail last next _ hi ih =>
    -- The list is new on the longer path, and so on the one from which it was reached.
    obtain ⟨-, further, own, deep, hown, hdeep⟩ := ih
    obtain ⟨hnew, inner, deeper, hinner, hdeeper⟩ :=
      expand_inclusion_of_ok hdeep (hi.mem_of_read hown)
    refine ⟨fun hmem => hnew ?_, further ++ [last], inner, deeper, hinner, ?_⟩
    · exact List.mem_append_left _ (List.mem_append_left _ hmem)
    · rwa [← List.append_assoc]

/-- A list on a cycle would be expanded beyond a path on which it stands already. -/
theorem resolves_of_expand_ok {name text : String} {items : List Item}
    (hr : archive.read name = .ok text)
    (h : (expand archive filter [name] (Line.ofText text)).result = .ok items) :
    archive.Resolves name := by
  have hlast : ∀ member, archive.Reaches name member → ∃ path own deep,
      member ∈ path ∧ archive.read member = .ok own ∧
        (expand archive filter path (Line.ofText own)).result = .ok deep := by
    intro member hm
    rcases Relation.reflTransGen_iff_eq_or_transGen.mp hm with rfl | hm
    · exact ⟨[member], text, items, List.mem_cons_self, hr, h⟩
    · obtain ⟨-, further, own, deep, hown, hdeep⟩ := expandedBeyond_of_reaches hr h hm
      exact ⟨_, own, deep, List.mem_append_right _ List.mem_cons_self, hown, hdeep⟩
  refine ⟨fun member hm => ?_, fun member hm hcycle => ?_⟩
  · obtain ⟨path, own, deep, -, hown, -⟩ := hlast member hm
    exact ⟨own, hown⟩
  · obtain ⟨path, own, deep, hmem, hown, hdeep⟩ := hlast member hm
    exact (expandedBeyond_of_reaches hown hdeep hcycle).1 hmem

theorem expand_ok_of_resolves
    (h : ∀ name ∈ inclusionsOf lines, archive.Resolves name ∧
      ∀ earlier ∈ path, ¬ archive.Reaches name earlier) :
    ∃ items, (expand archive filter path lines).result = .ok items := by
  induction path, lines using expansion_induction archive with
  | nil path => exact ⟨[], by rw [expand_nil]; rfl⟩
  | skip path line lines hline ih =>
    obtain ⟨steps, -, he⟩ := expand_cons_of_none hline archive filter path lines
    rw [inclusionsOf_cons_of_none hline] at h
    obtain ⟨items, hitems⟩ := ih h
    rw [he]
    exact ⟨_, Reading.result_map_eq_ok.mpr ⟨items, hitems, rfl⟩⟩
  | cyclic path name line lines hn hp =>
    rw [inclusionsOf_cons_inclusion hn] at h
    exact absurd .refl ((h name List.mem_cons_self).2 name hp)
  | unread path name line lines failure hn hp hr =>
    rw [inclusionsOf_cons_inclusion hn] at h
    obtain ⟨text, htext⟩ := (h name List.mem_cons_self).1.readable name .refl
    cases hr.symm.trans htext
  | read path name line lines text hn hp hr ihsub ihrest =>
    rw [inclusionsOf_cons_inclusion hn] at h
    obtain ⟨hresolves, hback⟩ := h name List.mem_cons_self
    -- What the included list includes may not come back to the path either, nor to that list.
    have hsub : ∀ other ∈ inclusionsOf (Line.ofText text), archive.Resolves other ∧
        ∀ earlier ∈ path ++ [name], ¬ archive.Reaches other earlier := by
      intro other ho
      have hi : archive.Includes name other := ⟨text, hr, ho⟩
      refine ⟨hresolves.of_reaches (.single hi), fun earlier he hreach => ?_⟩
      rcases List.mem_append.mp he with he | he
      · exact hback earlier he (.head hi hreach)
      · rw [List.mem_singleton.mp he] at hreach
        exact hresolves.not_reaches_of_includes hi hreach
    obtain ⟨inner, hinner⟩ := ihsub hsub
    obtain ⟨rest, hrest⟩ := ihrest fun other ho => h other (List.mem_cons_of_mem name ho)
    exact ⟨_, (result_expand_inclusion_eq_ok hn).mpr
      ⟨hp, text, inner, rest, hr, hinner, hrest, rfl⟩⟩

theorem Failure.eq_of_whenIncluded_cyclic {failure : Failure} {name : String}
    {chain : List String} (h : failure.whenIncluded path name = .cyclicInclude chain) :
    failure = .cyclicInclude chain := by
  cases failure with
  | listNotFound member => cases h
  | _ => exact h

/-- A cycle is reported only where a list is reached that is on one, or whose content says so by
itself. The path is one of inclusions, so a list that stands on it already reaches itself. -/
theorem cycle_of_expand_cyclic {chain : List String}
    (hpath : ∀ earlier ∈ path, ∀ name ∈ inclusionsOf lines,
      TransGen archive.Includes earlier name)
    (h : (expand archive filter path lines).result = .error (.cyclicInclude chain)) :
    ∃ name ∈ inclusionsOf lines, ∃ member, archive.Reaches name member ∧
      (TransGen archive.Includes member member ∨
        archive.read member = .error (.cyclicInclude chain)) := by
  -- Along the expansion. The invariant is that every list on the path leads to every list that may
  -- be opened next.
  induction path, lines using expansion_induction archive with
  | nil path =>
    rw [expand_nil] at h
    cases h
  | skip path line lines hline ih =>
    obtain ⟨steps, -, he⟩ := expand_cons_of_none hline archive filter path lines
    rw [he] at h
    rw [inclusionsOf_cons_of_none hline] at hpath ⊢
    exact ih hpath (Reading.result_map_eq_error.mp h)
  | cyclic path name line lines hn hp =>
    rw [inclusionsOf_cons_inclusion hn] at hpath ⊢
    exact ⟨name, List.mem_cons_self, name, .refl, .inl (hpath name hp name List.mem_cons_self)⟩
  | unread path name line lines failure hn hp hr =>
    rw [expand_inclusion_unread filter hn (by simpa using hp) hr] at h
    rw [inclusionsOf_cons_inclusion hn]
    have hfailure := Failure.eq_of_whenIncluded_cyclic (Except.error.inj h)
    exact ⟨name, List.mem_cons_self, name, .refl, .inr (hfailure ▸ hr)⟩
  | read path name line lines text hn hp hr ihsub ihrest =>
    rw [expand_inclusion_read filter hn (by simpa using hp) hr] at h
    rw [inclusionsOf_cons_inclusion hn] at hpath ⊢
    rcases Reading.result_bind_eq_error.mp h with hsub | ⟨inner, -, hrest⟩
    · -- The path that leads to the included list is one of inclusions as well.
      have hfurther : ∀ earlier ∈ path ++ [name], ∀ other ∈ inclusionsOf (Line.ofText text),
          TransGen archive.Includes earlier other := by
        intro earlier he other ho
        have hi : archive.Includes name other := ⟨text, hr, ho⟩
        rcases List.mem_append.mp he with he | he
        · exact (hpath earlier he name List.mem_cons_self).tail hi
        · rw [List.mem_singleton.mp he]
          exact .single hi
      obtain ⟨other, ho, member, hreach, hfault⟩ := ihsub hfurther hsub
      exact ⟨name, List.mem_cons_self, member, hreach.head ⟨text, hr, ho⟩, hfault⟩
    · obtain ⟨other, ho, hfault⟩ := ihrest
        (fun earlier he other ho => hpath earlier he other (List.mem_cons_of_mem name ho))
        (Reading.result_map_eq_error.mp hrest)
      exact ⟨other, List.mem_cons_of_mem name ho, hfault⟩

end Lines

end DomainRules
