import DomainRules.Proofs.Wildcard.Coverage
import Mathlib.Data.List.Forall2

namespace DomainRules

namespace Regex

/-- Literals, dots and unmodified groups of them, one after another. -/
def isPlain : Regex → Bool
  | empty | unit _ | any => true
  | group (.modified _ _) _ => false
  | group _ body => body.isPlain
  | concat first rest => first.isPlain && rest.isPlain
  | escape _ _ | oneOf _ _ | start | finish | wordEdge _ | look _ _ _ | backreference _
  | repeated _ _ _ | either _ _ => false

/-- A plain sequence, perhaps with the finish at its end. -/
def endsPlain : Regex → Bool
  | empty => true
  | concat finish empty => true
  | concat first rest => first.isPlain && rest.endsPlain
  | _ => false

/-- A plain sequence, perhaps between the start and the finish. -/
def isFramed : Regex → Bool
  | concat start rest => rest.endsPlain
  | r => r.endsPlain

/-- What stands at each place of a framed expression: a literal, or nothing for a dot. -/
def places : Regex → List (Option UInt16)
  | unit u => [some u]
  | any => [none]
  | group _ body => body.places
  | concat first rest => first.places ++ rest.places
  | empty | escape _ _ | oneOf _ _ | start | finish | wordEdge _ | look _ _ _ | backreference _
  | repeated _ _ _ | either _ _ => []

def admits (place : Option UInt16) (u : UInt16) : Bool :=
  match place with
  | some v => u == v
  | none => !isLineEnd u

def fits : List (Option UInt16) → List UInt16 → Bool
  | [], _ => true
  | _ :: _, [] => false
  | place :: places, u :: s => admits place u && fits places s

theorem fits_append (first rest : List (Option UInt16)) (s : List UInt16) :
    fits (first ++ rest) s = (fits first s && fits rest (s.drop first.length)) := by
  induction first generalizing s with
  | nil => rfl
  | cons place first ih =>
    cases s with
    | nil => rfl
    | cons u s => rw [List.cons_append, fits, ih, fits, List.length_cons, List.drop_succ_cons,
        Bool.and_assoc]

theorem length_le_of_fits {places : List (Option UInt16)} {s : List UInt16}
    (h : fits places s = true) : places.length ≤ s.length := by
  induction places generalizing s with
  | nil => exact Nat.zero_le _
  | cons place places ih =>
    cases s with
    | nil => cases h
    | cons u s =>
      rw [fits, Bool.and_eq_true] at h
      exact Nat.succ_le_succ (ih h.2)

theorem forall₂_append_iff (first rest : List (Option UInt16)) (s : List UInt16) :
    List.Forall₂ (admits · · = true) (first ++ rest) s ↔
      fits first s = true ∧ List.Forall₂ (admits · · = true) rest (s.drop first.length) := by
  induction first generalizing s with
  | nil => simp [fits]
  | cons place first ih =>
    cases s with
    | nil => simp [fits]
    | cons u s => simp [fits, ih, and_assoc]

end Regex

namespace Path

/-- The way has one course only, over the given places of the subject. -/
def Follows (way : Path) (s : List UInt16) (places : List (Option UInt16)) : Prop :=
  ∀ cursor : Cursor, ∃ reached : Cursor, reached.place = cursor.place + places.length ∧
    ∀ next, way cursor next =
      if Regex.fits places (s.drop cursor.place) then next reached else none

theorem follows_stay (s : List UInt16) : stay.Follows s [] := by
  intro cursor
  exact ⟨cursor, rfl, fun next => rfl⟩

theorem follows_step (s : List UInt16) (place : Option UInt16) :
    (step s.toArray false (Regex.admits place)).Follows s [place] := by
  intro cursor
  refine ⟨{ cursor with place := cursor.place + 1 }, rfl, ?_⟩
  intro next
  simp only [step, Bool.false_and, Bool.false_eq_true, ↓reduceIte, List.getElem?_toArray]
  cases hu : s[cursor.place]? with
  | none =>
    have hend : s.drop cursor.place = [] :=
      List.drop_eq_nil_of_le (List.getElem?_eq_none_iff.mp hu)
    simp [hend, Regex.fits]
  | some u =>
    obtain ⟨hp, he⟩ := List.getElem?_eq_some_iff.mp hu
    rw [List.drop_eq_getElem_cons hp, he]
    simp [Regex.fits]

theorem Follows.andThen {first second : Path} {s : List UInt16}
    {before after : List (Option UInt16)} (hf : first.Follows s before)
    (hs : second.Follows s after) : (first.andThen second).Follows s (before ++ after) := by
  intro cursor
  obtain ⟨middle, hmiddle, hfirst⟩ := hf cursor
  obtain ⟨reached, hreached, hsecond⟩ := hs middle
  refine ⟨reached, ?_, ?_⟩
  · rw [hreached, hmiddle, List.length_append]
    omega
  · intro next
    rw [Path.andThen, hfirst, hsecond, hmiddle, Regex.fits_append, List.drop_drop]
    cases Regex.fits before (s.drop cursor.place) <;> simp

end Path

namespace Regex

variable {s : List UInt16} {groups : List (Option GroupName)}

theorem follows_path {r : Regex} (h : r.isPlain = true) :
    ∀ index : Nat, (r.path s.toArray groups {} index false).Follows s r.places := by
  -- By the parts of the expression; none of them leaves a choice.
  induction r with
  | empty =>
    intro index
    exact Path.follows_stay s
  | unit v =>
    intro index
    exact Path.follows_step s (some v)
  | any =>
    intro index
    exact Path.follows_step s none
  | group kind body ih =>
    intro index
    cases kind with
    | plain => exact ih h index
    | modified on off => cases h
    | capture name =>
      intro cursor
      obtain ⟨reached, hplace, hway⟩ := ih h (index + 1) cursor
      refine ⟨reached.capture index cursor.place reached.place, hplace, ?_⟩
      intro next
      exact hway _
  | concat first rest ihf ihr =>
    intro index
    rw [isPlain, Bool.and_eq_true] at h
    exact (ihf h.1 index).andThen (ihr h.2 _)
  | _ => cases h

def atEnd (s : List UInt16) (cursor : Cursor) : Option Cursor :=
  if cursor.place = s.length then some cursor else none

theorem isSome_atEnd_iff {cursor : Cursor} (h : cursor.place ≤ s.length) :
    (atEnd s cursor).isSome = true ↔ s.drop cursor.place = [] := by
  unfold atEnd
  rw [List.drop_eq_nil_iff]
  split <;> simp <;> omega

theorem isSome_path_iff {r : Regex} (h : r.endsPlain = true) (index : Nat) {cursor : Cursor}
    (hc : cursor.place ≤ s.length) :
    (r.path s.toArray groups {} index false cursor (atEnd s)).isSome = true ↔
      List.Forall₂ (admits · · = true) r.places (s.drop cursor.place) := by
  fun_induction endsPlain r generalizing index cursor with
  | case1 =>
    have hnone : empty.places = [] := rfl
    rw [hnone, List.forall₂_nil_left_iff]
    exact isSome_atEnd_iff hc
  | case2 =>
    have hfinish : Mode.isFinish {} s.toArray cursor.place = true ↔ cursor.place = s.length := by
      simp [Mode.isFinish]
    have hway : (concat finish empty).path s.toArray groups {} index false cursor (atEnd s) =
        if Mode.isFinish {} s.toArray cursor.place then atEnd s cursor else none := rfl
    have hnone : (concat finish empty).places = [] := rfl
    rw [hway, hnone, List.forall₂_nil_left_iff, ← isSome_atEnd_iff hc]
    by_cases hplace : cursor.place = s.length
    · rw [if_pos (hfinish.mpr hplace)]
    · rw [if_neg (fun h => hplace (hfinish.mp h)), atEnd, if_neg hplace]
  | case3 first rest hfinish ih =>
    rw [Bool.and_eq_true] at h
    -- The first part goes one way, and the rest starts where that way ends.
    obtain ⟨reached, hplace, hway⟩ := follows_path h.1 index cursor
    have hconcat : (concat first rest).path s.toArray groups {} index false cursor (atEnd s) =
        first.path s.toArray groups {} index false cursor fun middle =>
          rest.path s.toArray groups {} (index + first.captures.length) false middle (atEnd s) := rfl
    rw [hconcat, hway, places, forall₂_append_iff]
    cases hfits : fits first.places (s.drop cursor.place) with
    | false => simp
    | true =>
      have hlength := length_le_of_fits hfits
      rw [List.length_drop] at hlength
      have hreached : reached.place ≤ s.length := by omega
      rw [if_pos rfl, ih h.2 (index + first.captures.length) hreached, hplace, List.drop_drop]
      simp
  | case4 r => cases h

theorem matchesAll_iff_forall₂ {r : Regex} (h : r.isFramed = true) (s : List UInt16) :
    r.matchesAll s = true ↔ List.Forall₂ (admits · · = true) r.places s := by
  have hwhole : r.matchesAll s =
      (r.path s.toArray r.captures {} 0 false
        { place := 0, spans := r.captures.map fun _ => none } (atEnd s)).isSome := rfl
  rw [hwhole]
  unfold isFramed at h
  split at h
  · rename_i rest
    -- The start holds at the beginning of the subject.
    exact isSome_path_iff h 0 (Nat.zero_le s.length)
  · exact isSome_path_iff h 0 (Nat.zero_le s.length)

theorem wildcard_of_isPlain {r : Regex} (h : r.isPlain = true) :
    r.wildcard = r.places.map (·.getD questionUnit) := by
  induction r with
  | empty => rfl
  | unit u => rfl
  | any => rfl
  | group kind body ih =>
    cases kind with
    | modified on off => cases h
    | _ => exact ih h
  | concat first rest ihf ihr =>
    rw [isPlain, Bool.and_eq_true] at h
    rw [wildcard, places, List.map_append, ihf h.1, ihr h.2]
  | _ => cases h

theorem wildcard_of_endsPlain {r : Regex} (h : r.endsPlain = true) :
    r.wildcard = r.places.map (·.getD questionUnit) := by
  fun_induction endsPlain r with
  | case1 => rfl
  | case2 => rfl
  | case3 first rest hfinish ih =>
    rw [Bool.and_eq_true] at h
    rw [wildcard, places, List.map_append, wildcard_of_isPlain h.1, ih h.2]
  | case4 r => cases h

theorem wildcard_of_isFramed {r : Regex} (h : r.isFramed = true) :
    r.wildcard = r.places.map (·.getD questionUnit) := by
  unfold isFramed at h
  split at h
  · rename_i rest
    have hrest := wildcard_of_endsPlain h
    exact hrest
  · exact wildcard_of_endsPlain h

end Regex

namespace Wildcard

open Regex

theorem Matches.cons_inv {x : UInt16} {w : Wildcard} {s : List UInt16}
    (h : Wildcard.Matches (x :: w) s) :
    x = starUnit ∨ ∃ u rest, s = u :: rest ∧ w.Matches rest ∧ (x = questionUnit ∨ u = x) := by
  cases h with
  | star piece h => exact .inl rfl
  | question u h => exact .inr ⟨u, _, rfl, h, .inl rfl⟩
  | literal hs hq h => exact .inr ⟨x, _, rfl, h, .inr rfl⟩

theorem Matches.mem_of_mem {u : UInt16} (hstar : u ≠ starUnit) (hquestion : u ≠ questionUnit)
    {w : Wildcard} {s : List UInt16} (h : w.Matches s) (hu : u ∈ w) : u ∈ s := by
  induction h with
  | nil => cases hu
  | star piece _ ih =>
    rcases List.mem_cons.mp hu with he | hu
    · exact absurd he hstar
    · exact List.mem_append_right piece (ih hu)
  | question v _ ih =>
    rcases List.mem_cons.mp hu with he | hu
    · exact absurd he hquestion
    · exact List.mem_cons_of_mem v (ih hu)
  | literal hs hq _ ih =>
    rcases List.mem_cons.mp hu with rfl | hu
    · exact List.mem_cons_self
    · exact List.mem_cons_of_mem _ (ih hu)

theorem matches_of_forall₂ {places : List (Option UInt16)} {s : List UInt16}
    (h : List.Forall₂ (admits · · = true) places s) :
    Wildcard.Matches (places.map (·.getD questionUnit)) s := by
  induction h with
  | nil => exact .nil
  | @cons place u places s hu _ ih =>
    cases place with
    | none => exact .question u ih
    | some v =>
      have hv : u = v := by simpa [admits] using hu
      rw [hv]
      exact (Matches.unit v).append ih

theorem forall₂_of_matches {places : List (Option UInt16)} {s : List UInt16}
    (hsigns : ∀ u, some u ∈ places → u ≠ starUnit ∧ u ≠ questionUnit)
    (hs : ∀ u ∈ s, isLineEnd u = false)
    (h : Wildcard.Matches (places.map (·.getD questionUnit)) s) :
    List.Forall₂ (admits · · = true) places s := by
  induction places generalizing s with
  | nil =>
    cases h
    exact .nil
  | cons place places ih =>
    have hlater : ∀ u, some u ∈ places → u ≠ starUnit ∧ u ≠ questionUnit :=
      fun u hu => hsigns u (List.mem_cons_of_mem _ hu)
    rw [List.map_cons] at h
    rcases h.cons_inv with hstar | ⟨u, rest, rfl, hrest, hu⟩
    · -- A star could only come from a literal: a dot is a question mark.
      cases place with
      | none => cases hstar
      | some v => exact absurd hstar (hsigns v List.mem_cons_self).1
    · have hrestEnds : ∀ v ∈ rest, isLineEnd v = false :=
        fun v hv => hs v (List.mem_cons_of_mem u hv)
      refine .cons ?_ (ih hlater hrestEnds hrest)
      cases place with
      | none =>
        rw [admits, hs u List.mem_cons_self]
        rfl
      | some v =>
        rcases hu with hquestion | rfl
        · exact absurd hquestion (hsigns v List.mem_cons_self).2
        · exact beq_self_eq_true _

/-- A unit that the wildcard admits at a place. Where the literal is a sign it is another one. -/
def filler : Option UInt16 → UInt16
  | some u => if u = starUnit ∨ u = questionUnit then 0x61 else u
  | none => 0x61

theorem matches_fillers (places : List (Option UInt16)) :
    Wildcard.Matches (places.map (·.getD questionUnit)) (places.map filler) := by
  induction places with
  | nil => exact .nil
  | cons place places ih =>
    cases place with
    | none => exact .question _ ih
    | some u =>
      rw [List.map_cons, List.map_cons, filler, Option.getD_some]
      split
      · rename_i hsign
        rcases hsign with rfl | rfl
        · exact .star [0x61] ih
        · exact .question 0x61 ih
      · rename_i hsign
        rw [not_or] at hsign
        exact .literal hsign.1 hsign.2 ih

theorem isLineEnd_filler {place : Option UInt16} (h : ∀ u, place = some u → isLineEnd u = false) :
    isLineEnd (filler place) = false := by
  cases place with
  | none => rfl
  | some u =>
    rw [filler]
    split
    · rfl
    · exact h u rfl

theorem ne_sign_of_admits_filler {u : UInt16} (h : admits (some u) (filler (some u)) = true) :
    u ≠ starUnit ∧ u ≠ questionUnit := by
  constructor
  · rintro rfl
    cases h
  · rintro rfl
    cases h

/-- The wildcard of a framed expression matches the same texts on one line as the expression exactly
if no literal is a wildcard sign, or if one is a line end, so that neither matches any. -/
theorem matches_iff_matchesAll_iff {text : List Char} {r : Regex}
    (hread : Regex.read? text = some r) (hshape : r.isFramed = true) :
    (∀ s : List UInt16, (∀ u ∈ s, isLineEnd u = false) →
        ((Wildcard.ofText text).Matches s ↔ r.matchesAll s = true)) ↔
      ((∃ u, some u ∈ r.places ∧ isLineEnd u = true) ∨
        ∀ u, some u ∈ r.places → u ≠ starUnit ∧ u ≠ questionUnit) := by
  have hwildcard : Wildcard.ofText text = r.places.map (·.getD questionUnit) := by
    rw [Wildcard.ofText, hread]
    exact wildcard_of_isFramed hshape
  simp only [hwildcard, matchesAll_iff_forall₂ hshape]
  constructor
  · intro hexact
    by_cases hend : ∃ u, some u ∈ r.places ∧ isLineEnd u = true
    · exact .inl hend
    · refine .inr ?_
      -- A text that the wildcard matches by construction shows a sign among the literals.
      have hfillers : ∀ u ∈ r.places.map filler, isLineEnd u = false := by
        intro u hu
        obtain ⟨place, hplace, rfl⟩ := List.mem_map.mp hu
        apply isLineEnd_filler
        rintro v rfl
        exact eq_false_of_ne_true fun hv => hend ⟨v, hplace, hv⟩
      have hall := (hexact _ hfillers).mp (matches_fillers r.places)
      rw [List.forall₂_map_right_iff, List.forall₂_same] at hall
      intro u hu
      exact ne_sign_of_admits_filler (hall (some u) hu)
  · rintro hcase s hs
    refine ⟨?_, matches_of_forall₂⟩
    intro hmatches
    rcases hcase with ⟨u, hu, hend⟩ | hsigns
    · -- The wildcard keeps the line end, so it matches no text on one line.
      have hkept : u ∈ r.places.map (·.getD questionUnit) :=
        List.mem_map.mpr ⟨some u, hu, rfl⟩
      have hstar : u ≠ starUnit := by
        rintro rfl
        cases hend
      have hquestion : u ≠ questionUnit := by
        rintro rfl
        cases hend
      have hin := hmatches.mem_of_mem hstar hquestion hkept
      exact absurd hend (by simp [hs u hin])
    · exact forall₂_of_matches hsigns hs hmatches

/-- An escaped dot and a dot in nested groups between the start and the finish. -/
theorem matches_iff_matchesAll_iff_nested :
    ∃ r : Regex, Regex.read? "/^a((?:\\.b).)$/".toList = some r ∧ r.isFramed = true ∧
      ∀ s : List UInt16, (∀ u ∈ s, isLineEnd u = false) →
        ((Wildcard.ofText "/^a((?:\\.b).)$/".toList).Matches s ↔ r.matchesAll s = true) := by
  let r : Regex := .concat .start (.concat (.unit 0x61) (.concat (.group (.capture none)
    (.concat (.group .plain (.concat (.unit 0x2E) (.concat (.unit 0x62) .empty)))
      (.concat .any .empty))) (.concat .finish .empty)))
  have hread : Regex.read? "/^a((?:\\.b).)$/".toList = some r := by decide +kernel
  have hplaces : r.places = [some 0x61, some 0x2E, some 0x62, none] := rfl
  refine ⟨r, hread, rfl, (matches_iff_matchesAll_iff hread rfl).mpr (.inr ?_)⟩
  rw [hplaces]
  simp [starUnit, questionUnit]

/-- An escaped star is published as a star. -/
theorem matches_of_escaped_star :
    ∃ r : Regex, Regex.read? "^a\\*b$".toList = some r ∧ r.isFramed = true ∧
      isDangerous "^a\\*b$".toList = false ∧
      (∀ u ∈ Text.units "a.b".toList, isLineEnd u = false) ∧
      (Wildcard.ofText "^a\\*b$".toList).Matches (Text.units "a.b".toList) ∧
      r.matchesAll (Text.units "a.b".toList) = false := by
  let r : Regex := .concat .start (.concat (.unit 0x61) (.concat (.unit 0x2A)
    (.concat (.unit 0x62) (.concat .finish .empty))))
  have hread : Regex.read? "^a\\*b$".toList = some r := by decide +kernel
  have hwildcard : Wildcard.ofText "^a\\*b$".toList = [0x61, starUnit, 0x62] := by decide +kernel
  have hunits : Text.units "a.b".toList = [0x61, 0x2E, 0x62] := by decide
  refine ⟨r, hread, rfl, by decide +kernel, ?_, ?_, by decide +kernel⟩
  · rw [hunits]
    simp [isLineEnd]
  · rw [hwildcard, hunits]
    exact (Matches.unit 0x61).append (.star [0x2E] (Matches.unit 0x62))

end Wildcard

end DomainRules
