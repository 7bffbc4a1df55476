import DomainRules.Proofs.Expansion.Inclusion
import Mathlib.Algebra.BigOperators.Intervals
import Mathlib.Algebra.BigOperators.Ring.Finset
import Mathlib.Data.List.MinMax
import Mathlib.Tactic.Ring

namespace DomainRules

open Relation (TransGen)

def Archive.inclusionCountOf (archive : Archive) (name : String) : Nat :=
  match archive.read name with
  | .ok text => inclusionCount (Line.ofText text)
  | .error _ => 0

def Archive.fanOut (archive : Archive) : Nat :=
  (archive.names.map archive.inclusionCountOf).foldr max 0

theorem Archive.inclusionCount_le_fanOut {archive : Archive} {name text : String}
    (hr : archive.read name = .ok text) :
    inclusionCount (Line.ofText text) ≤ archive.fanOut := by
  have hcount : archive.inclusionCountOf name = inclusionCount (Line.ofText text) := by
    rw [Archive.inclusionCountOf, hr]
  have hmem : archive.inclusionCountOf name ∈ archive.names.map archive.inclusionCountOf :=
    List.mem_map_of_mem (mem_names_of_read hr)
  rw [← hcount]
  exact List.le_max_of_le' 0 hmem le_rfl

/-- What one inclusion costs at most while so many members are not yet on the path. -/
def inclusionCost (fanOut unvisited : Nat) : Nat :=
  5 * ∑ depth ∈ Finset.range (unvisited + 1), fanOut ^ depth

theorem inclusionCost_succ (fanOut unvisited : Nat) :
    inclusionCost fanOut (unvisited + 1) = 5 + fanOut * inclusionCost fanOut unvisited := by
  have hsum : ∑ depth ∈ Finset.range (unvisited + 1), fanOut ^ (depth + 1) =
      fanOut * ∑ depth ∈ Finset.range (unvisited + 1), fanOut ^ depth := by
    rw [Finset.mul_sum]
    exact Finset.sum_congr rfl fun depth _ => pow_succ' fanOut depth
  rw [inclusionCost, Finset.sum_range_succ', hsum, inclusionCost, pow_zero]
  ring

theorem five_le_inclusionCost (fanOut unvisited : Nat) : 5 ≤ inclusionCost fanOut unvisited := by
  cases unvisited with
  | zero => simp [inclusionCost]
  | succ unvisited =>
    rw [inclusionCost_succ]
    omega

/-- The path grows with every list that is opened, and so the price of an inclusion falls. -/
theorem length_steps_expand_le (archive : Archive) (filter : String) (path : List String)
    (lines : List Line) {unvisited : Nat} (hu : (archive.unvisited path).length ≤ unvisited) :
    (expand archive filter path lines).steps.length ≤
      inclusionCount lines * inclusionCost archive.fanOut unvisited := by
  induction path, lines using expansion_induction archive generalizing unvisited with
  | nil path => simp [Reading.done]
  | skip path line lines hline ih =>
    obtain ⟨steps, hsteps, he⟩ := expand_cons_of_none hline archive filter path lines
    have hrest := ih hu
    have hfive := five_le_inclusionCost archive.fanOut unvisited
    rw [he, inclusionCount_cons, Nat.add_mul, Reading.steps_after, Reading.steps_map,
      List.length_append]
    have hhere : inclusionCount [line] ≤
        inclusionCount [line] * inclusionCost archive.fanOut unvisited :=
      Nat.le_mul_of_pos_right _ (by omega)
    omega
  | cyclic path name line lines hn hp =>
    have hfive := five_le_inclusionCost archive.fanOut unvisited
    rw [expand_inclusion_cyclic archive filter hn (by simpa using hp), inclusionCount_cons,
      Nat.add_mul, show inclusionCount [.inclusion name line] = 1 from rfl, List.length_singleton]
    omega
  | unread path name line lines failure hn hp hr =>
    have hfive := five_le_inclusionCost archive.fanOut unvisited
    rw [expand_inclusion_unread filter hn (by simpa using hp) hr, inclusionCount_cons,
      Nat.add_mul, show inclusionCount [.inclusion name line] = 1 from rfl]
    simp only [List.length_cons, List.length_nil]
    omega
  | read path name line lines text hn hp hr ihsub ihrest =>
    -- The included list is expanded with one member less to visit, so each of its inclusions costs
    -- less, and there are at most so many of them as in any list.
    have hp' : ¬ path.contains name = true := by simpa using hp
    have hfewer : (archive.unvisited (path ++ [name])).length < unvisited :=
      Nat.lt_of_lt_of_le (Archive.length_unvisited_lt hp' hr) hu
    obtain ⟨fewer, rfl⟩ : ∃ fewer, unvisited = fewer + 1 :=
      Nat.exists_eq_succ_of_ne_zero (Nat.ne_zero_of_lt hfewer)
    have hsub := ihsub (Nat.le_of_lt_succ hfewer)
    have hrest := ihrest hu
    have hfan : inclusionCount (Line.ofText text) * inclusionCost archive.fanOut fewer ≤
        archive.fanOut * inclusionCost archive.fanOut fewer :=
      Nat.mul_le_mul_right _ (Archive.inclusionCount_le_fanOut hr)
    have hbind := Reading.length_steps_bind_le
      (((expand archive filter (path ++ [name]) (Line.ofText text)).after
        [.read name, .turn, .turn]).before [.turn, .turn])
      (fun items => (expand archive filter path lines).map (includedItems line items ++ ·))
      (n := (expand archive filter path lines).steps.length) fun items => Nat.le_refl _
    rw [expand_inclusion_read filter hn hp' hr, inclusionCount_cons, Nat.add_mul,
      show inclusionCount [.inclusion name line] = 1 from rfl, Nat.one_mul, inclusionCost_succ]
    rw [inclusionCost_succ] at hrest
    simp only [Reading.steps_before, Reading.steps_after, List.length_append, List.length_cons,
      List.length_nil] at hbind
    omega

theorem length_steps_expandMember_le (archive : Archive) (filter name : String) :
    (expandMember archive filter name).steps.length ≤
      inclusionCost archive.fanOut archive.members.length := by
  cases hr : archive.read name with
  | error failure =>
    have hfive := five_le_inclusionCost archive.fanOut archive.members.length
    rw [expandMember_of_unread filter hr, List.length_cons, List.length_cons, List.length_singleton]
    omega
  | ok text =>
    obtain ⟨rest, hrest, he⟩ := expandMember_of_read filter hr
    -- The member itself is the first on the path.
    have hfewer : (archive.unvisited [name]).length < archive.members.length := by
      have hall : (archive.unvisited []).length ≤ archive.members.length := by
        rw [← List.length_map (fun member : String × Content => member.1)]
        exact List.length_filter_le _ _
      have hnew : ¬ ([] : List String).contains name = true := by simp
      exact Nat.lt_of_lt_of_le (Archive.length_unvisited_lt hnew hr) hall
    obtain ⟨fewer, hlen⟩ : ∃ fewer, archive.members.length = fewer + 1 :=
      Nat.exists_eq_succ_of_ne_zero (Nat.ne_zero_of_lt hfewer)
    have hunvisited : (archive.unvisited [name]).length ≤ fewer := by omega
    have hbody := length_steps_expand_le archive filter [name] (Line.ofText text) hunvisited
    have hfan : inclusionCount (Line.ofText text) * inclusionCost archive.fanOut fewer ≤
        archive.fanOut * inclusionCost archive.fanOut fewer :=
      Nat.mul_le_mul_right _ (Archive.inclusionCount_le_fanOut hr)
    rw [he, hlen, inclusionCost_succ, Reading.steps_before, Reading.steps_after]
    simp only [List.length_append, List.length_cons, List.length_nil]
    omega

/-- Expanding a member takes a bounded number of steps, however the lists include one another. It
succeeds exactly if every list that the member reaches through inclusions can be read and none of
them is on a cycle, and it reports a cycle only if there is one, or if a list that it reaches fails
with that report itself. -/
theorem expandMember_ok_iff_resolves (archive : Archive) (filter name : String) :
    (expandMember archive filter name).steps.length ≤
        5 * ∑ depth ∈ Finset.range (archive.members.length + 1), archive.fanOut ^ depth ∧
      ((∃ items, (expandMember archive filter name).result = .ok items) ↔
        archive.Resolves name) ∧
      ∀ chain, (expandMember archive filter name).result = .error (.cyclicInclude chain) →
        ∃ member, archive.Reaches name member ∧
          (TransGen archive.Includes member member ∨
            archive.read member = .error (.cyclicInclude chain)) := by
  refine ⟨length_steps_expandMember_le archive filter name, ?_, ?_⟩
  · constructor
    · rintro ⟨items, h⟩
      cases hr : archive.read name with
      | error failure =>
        rw [expandMember_of_unread filter hr] at h
        cases h
      | ok text =>
        obtain ⟨rest, -, he⟩ := expandMember_of_read filter hr
        rw [he] at h
        exact resolves_of_expand_ok hr h
    · intro h
      obtain ⟨text, hr⟩ := h.readable name .refl
      obtain ⟨rest, -, he⟩ := expandMember_of_read filter hr
      rw [he]
      refine expand_ok_of_resolves fun other ho => ?_
      have hi : archive.Includes name other := ⟨text, hr, ho⟩
      refine ⟨h.of_reaches (.single hi), fun earlier hearlier hback => ?_⟩
      rw [List.mem_singleton.mp hearlier] at hback
      exact h.not_reaches_of_includes hi hback
  · intro chain h
    cases hr : archive.read name with
    | error failure =>
      rw [expandMember_of_unread filter hr] at h
      have hfailure : failure = .cyclicInclude chain := Except.error.inj h
      exact ⟨name, .refl, .inr (hfailure ▸ hr)⟩
    | ok text =>
      obtain ⟨rest, -, he⟩ := expandMember_of_read filter hr
      rw [he] at h
      -- The member is all there is on the path, and it includes the lists that are expanded next.
      have hpath : ∀ earlier ∈ [name], ∀ other ∈ inclusionsOf (Line.ofText text),
          TransGen archive.Includes earlier other := by
        intro earlier hearlier other ho
        rw [List.mem_singleton.mp hearlier]
        exact .single ⟨text, hr, ho⟩
      obtain ⟨other, ho, member, hreach, hfault⟩ := cycle_of_expand_cyclic hpath h
      exact ⟨member, hreach.head ⟨text, hr, ho⟩, hfault⟩

end DomainRules
