import DomainRules.Regex.Match
import DomainRules.Wildcard

/-!
What a wildcard matches, and that the wildcard of a regular expression without lossy parts matches
whatever the expression matches. The parts that `isLossy` refuses are the ones whose question mark
may stand for more or less than one unit, so both recursions are followed together.
-/
namespace DomainRules

namespace Wildcard

/-- A star stands for any sequence, a question mark for one unit, all else for itself. -/
inductive Matches : Wildcard → List UInt16 → Prop where
  | nil : Matches [] []
  | star (piece : List UInt16) {w : Wildcard} {s : List UInt16} (h : Matches w s) :
    Matches (starUnit :: w) (piece ++ s)
  | question (u : UInt16) {w : Wildcard} {s : List UInt16} (h : Matches w s) :
    Matches (questionUnit :: w) (u :: s)
  | literal {u : UInt16} (hs : u ≠ starUnit) (hq : u ≠ questionUnit) {w : Wildcard}
    {s : List UInt16} (h : Matches w s) : Matches (u :: w) (u :: s)

theorem Matches.append {v w : Wildcard} {s t : List UInt16} (hv : v.Matches s)
    (hw : w.Matches t) : Wildcard.Matches (v ++ w) (s ++ t) := by
  induction hv with
  | nil => exact hw
  | star piece _ ih =>
    rw [List.append_assoc]
    exact .star piece ih
  | question u _ ih => exact .question u ih
  | literal hs hq _ ih => exact .literal hs hq ih

theorem Matches.star_all (s : List UInt16) : Wildcard.Matches [starUnit] s := by
  have h := Matches.star s .nil
  rwa [List.append_nil] at h

/-- A literal matches itself even when it is one of the two wildcard signs. -/
theorem Matches.unit (u : UInt16) : Wildcard.Matches [u] [u] := by
  by_cases hs : u = starUnit
  · rw [hs]
    exact .star_all _
  · by_cases hq : u = questionUnit
    · rw [hq]
      exact .question _ .nil
    · exact .literal hs hq .nil

def Spans (w : Wildcard) (s : List UInt16) (first last : Nat) : Prop :=
  ∃ piece : List UInt16, w.Matches piece ∧ last = first + piece.length ∧
    s.drop first = piece ++ s.drop last

theorem Spans.refl (s : List UInt16) (place : Nat) : Spans [] s place place :=
  ⟨[], .nil, rfl, rfl⟩

theorem Spans.append {v w : Wildcard} {s : List UInt16} {first middle last : Nat}
    (hv : v.Spans s first middle) (hw : w.Spans s middle last) :
    Spans (v ++ w) s first last := by
  obtain ⟨p, hp, hm, hd⟩ := hv
  obtain ⟨q, hq, hl, he⟩ := hw
  refine ⟨p ++ q, hp.append hq, ?_, ?_⟩
  · rw [List.length_append]
    omega
  · rw [hd, he, List.append_assoc]

theorem Spans.next {x u : UInt16} {s : List UInt16} {place : Nat} (hu : s[place]? = some u)
    (h : Wildcard.Matches [x] [u]) : Spans [x] s place (place + 1) := by
  obtain ⟨hp, he⟩ := List.getElem?_eq_some_iff.mp hu
  refine ⟨[u], h, rfl, ?_⟩
  rw [List.drop_eq_getElem_cons hp, he]
  rfl

theorem Spans.star {w : Wildcard} {s : List UInt16} {first last : Nat}
    (h : w.Spans s first last) : Spans [starUnit] s first last := by
  obtain ⟨piece, _, hl, hd⟩ := h
  exact ⟨piece, .star_all piece, hl, hd⟩

theorem Spans.star_trans {s : List UInt16} {first middle last : Nat}
    (hv : Spans [starUnit] s first middle) (hw : Spans [starUnit] s middle last) :
    Spans [starUnit] s first last :=
  (hv.append hw).star

theorem Spans.matches_all {w : Wildcard} {s : List UInt16} (h : w.Spans s 0 s.length) :
    w.Matches s := by
  obtain ⟨piece, hp, _, hd⟩ := h
  rw [List.drop_zero, List.drop_length, List.append_nil] at hd
  rwa [hd]

end Wildcard

namespace Path

/-- Wherever the way goes on, it goes on from a cursor in the given relation to the first one. -/
def Leads (way : Path) (R : Cursor → Cursor → Prop) : Prop :=
  ∀ (cursor : Cursor) (next : Cursor → Option Cursor) (final : Cursor),
    way cursor next = some final → ∃ reached, R cursor reached ∧ next reached = some final

variable {R S : Cursor → Cursor → Prop}

theorem Leads.mono {way : Path} (h : way.Leads R) (hRS : ∀ c d, R c d → S c d) :
    way.Leads S := by
  intro cursor next final hf
  obtain ⟨reached, hr, hn⟩ := h cursor next final hf
  exact ⟨reached, hRS cursor reached hr, hn⟩

theorem leads_stay (hR : ∀ c, R c c) : stay.Leads R :=
  fun cursor _ _ hf => ⟨cursor, hR cursor, hf⟩

theorem leads_check (holds : Cursor → Bool) (hR : ∀ c, R c c) : (check holds).Leads R := by
  intro cursor next final hf
  unfold check at hf
  split at hf
  · exact ⟨cursor, hR cursor, hf⟩
  · cases hf

theorem Leads.andThen {first second : Path} (hf : first.Leads R) (hs : second.Leads S) :
    (first.andThen second).Leads (fun c d => ∃ m, R c m ∧ S m d) := by
  intro cursor next final h
  obtain ⟨middle, hm, h⟩ := hf cursor _ final h
  obtain ⟨reached, hr, hn⟩ := hs middle next final h
  exact ⟨reached, ⟨middle, hm, hr⟩, hn⟩

theorem Leads.orElse {first second : Path} (hf : first.Leads R) (hs : second.Leads R) :
    (first.orElse second).Leads R := by
  intro cursor next final h
  unfold Path.orElse at h
  split at h
  · rename_i found hfound
    exact hf cursor next final (hfound.trans h)
  · exact hs cursor next final h

theorem leads_step (s : List UInt16) (holds : UInt16 → Bool) :
    (step s.toArray false holds).Leads
      (fun c d => ∃ u, s[c.place]? = some u ∧ holds u = true ∧ d.place = c.place + 1) := by
  intro cursor next final h
  simp only [step, Bool.false_and, Bool.false_eq_true, ↓reduceIte, List.getElem?_toArray] at h
  split at h
  · rename_i u hu
    split at h
    · rename_i hh
      exact ⟨_, ⟨u, hu, hh, rfl⟩, h⟩
    · cases h
  · cases h

theorem Leads.round {way rest : Path} {release : Cursor → Cursor} (hw : way.Leads R)
    (hr : rest.Leads R) (htrans : ∀ c d e, R c d → R d e → R c e)
    (hrel : ∀ c d, R (release c) d → R c d) (least : Nat) :
    (way.round release least rest).Leads R := by
  intro cursor next final h
  obtain ⟨middle, hm, h⟩ := hw (release cursor) _ final h
  split at h
  · cases h
  · obtain ⟨reached, hd, hn⟩ := hr middle next final h
    exact ⟨reached, htrans _ _ _ (hrel _ _ hm) hd, hn⟩

theorem leads_loop {way : Path} {release : Cursor → Cursor} (hw : way.Leads R)
    (hrefl : ∀ c, R c c) (htrans : ∀ c d e, R c d → R d e → R c e)
    (hrel : ∀ c d, R (release c) d → R c d) (isLazy : Bool) (fuel : Nat) :
    ∀ (least : Nat) (most : Option Nat), (loop way release isLazy fuel least most).Leads R := by
  induction fuel with
  | zero => intro least most cursor next final h; cases h
  | succ fuel ih =>
    intro least most
    unfold loop
    split
    · exact leads_stay hrefl
    · -- One round, and then the rest of the rounds by induction.
      have honward := hw.round (ih (least - 1) (most.map (· - 1))) htrans hrel least
      dsimp only
      split
      · exact honward
      · split
        · exact (leads_stay hrefl).orElse honward
        · exact honward.orElse (leads_stay hrefl)

end Path

namespace Regex

def hasModifiers : Regex → Bool
  | look _ _ body => body.hasModifiers
  | group (.modified _ _) _ => true
  | group _ body => body.hasModifiers
  | repeated body _ _ => body.hasModifiers
  | concat first rest => first.hasModifiers || rest.hasModifiers
  | either left right => left.hasModifiers || right.hasModifiers
  | _ => false

theorem leads_unit (s : List UInt16) (v : UInt16) :
    (Path.step s.toArray false fun u => Mode.areSame {} u v).Leads
      (fun c d => Wildcard.Spans [v] s c.place d.place) := by
  refine (Path.leads_step s _).mono ?_
  rintro c d ⟨u, hu, hv, hd⟩
  have he : u = v := by simpa [Mode.areSame] using hv
  rw [hd]
  exact Wildcard.Spans.next hu (he ▸ Wildcard.Matches.unit u)

theorem leads_any (s : List UInt16) (holds : UInt16 → Bool) :
    (Path.step s.toArray false holds).Leads
      (fun c d => Wildcard.Spans [questionUnit] s c.place d.place) := by
  refine (Path.leads_step s holds).mono ?_
  rintro c d ⟨u, hu, _, hd⟩
  rw [hd]
  exact Wildcard.Spans.next hu (.question u .nil)

/-- An expression without lossy parts goes on only over pieces that its wildcard matches. -/
theorem leads_path (s : List UInt16) (groups : List (Option GroupName)) (r : Regex)
    (hl : r.isLossy = false) (hm : r.hasModifiers = false) :
    ∀ index : Nat, (r.path s.toArray groups {} index false).Leads
      (fun c d => Wildcard.Spans r.wildcard s c.place d.place) := by
  have hrefl (c : Cursor) : Wildcard.Spans [] s c.place c.place := .refl s c.place
  -- The lossy parts contradict the assumption. What the others go over is covered part by part, and
  -- a repetition by a star, however often its part matches.
  induction r with
  | empty => intro index; exact Path.leads_stay hrefl
  | start => intro index; exact Path.leads_check _ hrefl
  | finish => intro index; exact Path.leads_check _ hrefl
  | wordEdge negated => intro index; exact Path.leads_check _ hrefl
  | unit v => intro index; exact leads_unit s v
  | any => intro index; exact leads_any s _
  | escape kind negated => cases hl
  | oneOf negated members => cases hl
  | look behind negated body => cases hl
  | backreference target => cases hl
  | either left right => cases hl
  | group kind body ih =>
    intro index
    cases kind with
    | plain => exact ih hl hm index
    | modified on off => cases hm
    | capture name =>
      intro cursor next final h
      obtain ⟨reached, hr, hn⟩ := ih hl hm (index + 1) cursor _ final h
      exact ⟨reached.capture index cursor.place reached.place, hr, hn⟩
  | concat first rest ihf ihr =>
    intro index
    rw [isLossy, Bool.or_eq_false_iff] at hl
    rw [hasModifiers, Bool.or_eq_false_iff] at hm
    refine ((ihf hl.1 hm.1 index).andThen (ihr hl.2 hm.2 _)).mono ?_
    rintro c d ⟨m, hc, hd⟩
    exact hc.append hd
  | repeated body times isLazy ih =>
    intro index
    have hb : body.isLossy = false := by
      cases times with
      | counted least most => cases hl
      | star => exact hl
      | plus => exact hl
      | optional => exact hl
    refine Path.leads_loop ((ih hb hm index).mono fun c d h => h.star) ?_ ?_ ?_ isLazy _ _ _
    · exact fun c => (hrefl c).star
    · exact fun c d e hc hd => hc.star_trans hd
    · exact fun c d h => h

end Regex

/-- What a regular expression matches from beginning to end, the wildcard that is published in its
place matches too. -/
theorem Wildcard.ofText_matches {text : List Char} {r : Regex} {s : List UInt16}
    (hread : Regex.read? text = some r) (hplain : r.hasModifiers = false)
    (hsafe : isDangerous text = false) (hmatch : r.matchesAll s = true) :
    (Wildcard.ofText text).Matches s := by
  have hl : r.isLossy = false := by
    rw [isDangerous, hread, Bool.or_eq_false_iff] at hsafe
    exact hsafe.1
  obtain ⟨final, hf⟩ := Option.isSome_iff_exists.mp hmatch
  obtain ⟨reached, hr, hn⟩ := Regex.leads_path s r.captures r hl hplain 0 _ _ final hf
  have hend : reached.place = s.length := by
    split at hn
    · assumption
    · cases hn
  rw [Wildcard.ofText, hread]
  rw [hend] at hr
  exact hr.matches_all

/-- A lazy repetition of a group, a dot and an escaped question mark between two anchors. -/
theorem Wildcard.ofText_matches_lazy_group :
    ∃ r : Regex, Regex.read? "/^(ad+)*?.\\?x$/".toList = some r ∧ r.hasModifiers = false ∧
      isDangerous "/^(ad+)*?.\\?x$/".toList = false ∧
      r.matchesAll (Text.units "addad!?x".toList) = true ∧
      (Wildcard.ofText "/^(ad+)*?.\\?x$/".toList).Matches (Text.units "addad!?x".toList) := by
  let r : Regex := .concat .start (.concat
    (.repeated (.group (.capture none)
      (.concat (.unit 0x61) (.concat (.repeated (.unit 0x64) .plus false) .empty))) .star true)
    (.concat .any (.concat (.unit 0x3F) (.concat (.unit 0x78) (.concat .finish .empty)))))
  have hread : Regex.read? "/^(ad+)*?.\\?x$/".toList = some r := by decide +kernel
  have hsafe : isDangerous "/^(ad+)*?.\\?x$/".toList = false := by decide +kernel
  have hmatch : r.matchesAll (Text.units "addad!?x".toList) = true := by decide +kernel
  exact ⟨r, hread, rfl, hsafe, hmatch, Wildcard.ofText_matches hread rfl hsafe hmatch⟩

end DomainRules
