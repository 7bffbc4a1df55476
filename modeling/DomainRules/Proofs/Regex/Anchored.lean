import DomainRules.Proofs.Regex.Rounds

namespace DomainRules

namespace Path

theorem isSome_orElse (first second : Path) (cursor : Cursor) (next : Cursor → Option Cursor) :
    (first.orElse second cursor next).isSome = true ↔
      (first cursor next).isSome = true ∨ (second cursor next).isSome = true := by
  unfold orElse
  cases first cursor next <;> simp

section

variable {s : List UInt16} {holds : UInt16 → Bool} {cursor : Cursor}

theorem step_of_end (h : s.length ≤ cursor.place) (next : Cursor → Option Cursor) :
    step s.toArray false holds cursor next = none := by
  have hnone : s[cursor.place]? = none := List.getElem?_eq_none_iff.mpr h
  simp only [step, Bool.false_and, Bool.false_eq_true, ↓reduceIte, List.getElem?_toArray, hnone]

theorem step_of_unit (h : cursor.place < s.length) (next : Cursor → Option Cursor) :
    step s.toArray false holds cursor next =
      if holds s[cursor.place] then next { cursor with place := cursor.place + 1 } else none := by
  have hunit : s[cursor.place]? = some s[cursor.place] := List.getElem?_eq_getElem h
  simp only [step, Bool.false_and, Bool.false_eq_true, ↓reduceIte, List.getElem?_toArray, hunit]

/-- Rounds of one unit each lead to the end of the subject exactly if all units that lie ahead are
of the set. -/
theorem isSome_loop_step_iff {release : Cursor → Cursor} {next : Cursor → Option Cursor}
    (hrelease : ∀ c, (release c).place = c.place)
    (hnext : ∀ c, (next c).isSome = true ↔ c.place = s.length)
    {fuel : Nat} (hplace : cursor.place ≤ s.length) (hfuel : s.length - cursor.place < fuel) :
    (loop (step s.toArray false holds) release false fuel 0 none cursor next).isSome = true ↔
      ∀ u ∈ s.drop cursor.place, holds u = true := by
  induction fuel generalizing cursor with
  | zero => omega
  | succ fuel ih =>
    let rest : Path := loop (step s.toArray false holds) release false fuel 0 none
    have hloop : loop (step s.toArray false holds) release false (fuel + 1) 0 none =
        ((step s.toArray false holds).round release 0 rest).orElse stay := rfl
    have hstay : (stay cursor next).isSome = true ↔ cursor.place = s.length := hnext cursor
    rw [hloop, isSome_orElse, hstay]
    by_cases hend : cursor.place = s.length
    · -- At the end nothing lies ahead, and to stay is enough.
      rw [List.drop_eq_nil_of_le (Nat.le_of_eq hend.symm)]
      exact iff_of_true (.inr hend) fun u hu => absurd hu List.not_mem_nil
    · have hunit : cursor.place < s.length := by omega
      let reached : Cursor := { release cursor with place := cursor.place + 1 }
      have hround : (step s.toArray false holds).round release 0 rest cursor next =
          if holds s[cursor.place] then rest reached next else none := by
        have hplaced : (release cursor).place < s.length := by rwa [hrelease]
        rw [round, step_of_unit hplaced]
        simp [hrelease, reached]
      have hrest : (rest reached next).isSome = true ↔
          ∀ u ∈ s.drop (cursor.place + 1), holds u = true := by
        apply ih
        · exact hunit
        · have hmoved : reached.place = cursor.place + 1 := rfl
          omega
      rw [or_iff_left hend, hround, List.drop_eq_getElem_cons hunit, List.forall_mem_cons, ← hrest]
      split <;> simp [*]

end

end Path

namespace Regex

/-- A whole text of a unit of one class and then any number of units of another. -/
def anchored (first later : List ClassMember) : Regex :=
  sequence [start, oneOf false first, repeated (oneOf false later) .star false, finish]

/-- A unit counts as one of a class if one that differs from it at most in case is a member. -/
def admitsAnyCase (members : List ClassMember) (u : UInt16) : Bool :=
  (Text.casesOf u).any fun v => members.any (·.contains v)

def isRunOf (first later : List ClassMember) : List UInt16 → Bool
  | [] => false
  | u :: rest => admitsAnyCase first u && rest.all (admitsAnyCase later)

theorem pathFrom_anchored (first later : List ClassMember) (s : List UInt16) (place : Nat) :
    (anchored first later).pathFrom s.toArray { ignoresCase := true } place some =
      if place = 0 then
        Path.step s.toArray false (admitsAnyCase first) { place, spans := [] } fun begun =>
          Path.loop (Path.step s.toArray false (admitsAnyCase later)) (·.release 0 0) false
            (s.length + 1) 0 none begun fun reached =>
              if reached.place = s.length then some reached else none
      else none := by
  have hway : (anchored first later).pathFrom s.toArray { ignoresCase := true } place some =
      if place == 0 || false then
        Path.step s.toArray false (admitsAnyCase first · != false) { place, spans := [] } fun begun =>
          Path.loop (Path.step s.toArray false (admitsAnyCase later · != false)) (·.release 0 0) false
            (0 + s.toArray.size + 1) 0 none begun fun reached =>
              if reached.place == s.toArray.size || false then some reached else none
      else none := rfl
  have hclass : ∀ members : List ClassMember,
      (admitsAnyCase members · != false) = admitsAnyCase members := by
    intro members
    funext u
    cases admitsAnyCase members u <;> rfl
  rw [hway]
  simp only [hclass, Bool.or_false, beq_iff_eq, List.size_toArray, Nat.zero_add]

theorem isSome_pathFrom_anchored_iff (first later : List ClassMember) (s : List UInt16)
    (place : Nat) :
    ((anchored first later).pathFrom s.toArray { ignoresCase := true } place some).isSome = true ↔
      place = 0 ∧ isRunOf first later s = true := by
  rw [pathFrom_anchored]
  by_cases hplace : place = 0
  · rw [if_pos hplace, hplace, eq_self_iff_true, true_and]
    cases s with
    | nil =>
      have hend : ([] : List UInt16).length ≤ (⟨0, []⟩ : Cursor).place := Nat.le_refl 0
      rw [Path.step_of_end hend]
      exact Iff.rfl
    | cons u rest =>
      have hunit : (⟨0, []⟩ : Cursor).place < (u :: rest).length := Nat.zero_lt_succ _
      rw [Path.step_of_unit hunit, isRunOf, Bool.and_eq_true, List.all_eq_true,
        List.getElem_cons_zero]
      split
      · rename_i hfirst
        -- Behind the first unit the rounds of the other class begin.
        rw [and_iff_right hfirst, Path.isSome_loop_step_iff]
        · exact Iff.rfl
        · intro c
          rfl
        · intro c
          split
          · exact iff_of_true rfl ‹_›
          · exact iff_of_false Bool.false_ne_true ‹_›
        · exact Nat.succ_le_succ (Nat.zero_le rest.length)
        · exact Nat.lt_succ_of_le (Nat.sub_le _ _)
      · rename_i hfirst
        exact iff_of_false Bool.false_ne_true fun h => hfirst h.1
  · rw [if_neg hplace]
    exact iff_of_false Bool.false_ne_true fun h => hplace h.1

/-- An anchored expression is found in a text exactly if the text begins with a unit of the one
class and goes on with units of the other. -/
theorem isSome_search?_anchored (first later : List ClassMember) (s : List UInt16) :
    ((anchored first later).search? s).isSome = isRunOf first later s := by
  rw [Bool.eq_iff_iff]
  unfold search?
  dsimp only
  rw [Option.isSome_map, List.findSome?_isSome_iff]
  simp only [isSome_pathFrom_anchored_iff, List.mem_range]
  constructor
  · rintro ⟨place, -, -, hrun⟩
    exact hrun
  · intro hrun
    exact ⟨0, Nat.zero_lt_succ _, rfl, hrun⟩

end Regex

end DomainRules
