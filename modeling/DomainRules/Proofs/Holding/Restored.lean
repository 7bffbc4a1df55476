import DomainRules.Proofs.Holding.Restart
import DomainRules.Proofs.Number.Order

namespace DomainRules

namespace Holding

/-- Once a lifetime has passed since a moment, the archive no longer counts as current. -/
def LapsesAfter (holding : Holding) (start lifetime : Nat) : Prop :=
  ∀ now : Nat, start + lifetime < now → now < 2 ^ 53 → holding.current? (.ofNat now) = none

theorem current?_eq_none_iff {holding : Holding} {held : Held} (hheld : holding.held = some held)
    (now : Number) : holding.current? now = none ↔ holding.isStale now held = true := by
  rw [current?, hheld]
  dsimp only
  split
  · rename_i hstale
    exact iff_of_true rfl hstale
  · rename_i hfresh
    exact iff_of_false (Option.some_ne_none _) hfresh

/-- It is enough that the archive is out of date at the first millisecond. -/
theorem lapsesAfter_iff {holding : Holding} {held : Held} {start lifetime : Nat}
    (hheld : holding.held = some held) (hlifetime : holding.lifetime = .ofNat lifetime)
    (hfits : start + lifetime + 1 < 2 ^ 53) :
    holding.LapsesAfter start lifetime ↔
      (Number.ofNat lifetime).lt ((Number.ofNat (start + lifetime + 1)).sub held.since) = true := by
  have hmiss : ∀ now : Nat, holding.current? (.ofNat now) = none ↔
      (Number.ofNat lifetime).lt ((Number.ofNat now).sub held.since) = true := by
    intro now
    rw [current?_eq_none_iff hheld, isStale, hlifetime]
  constructor
  · intro h
    exact (hmiss _).mp (h _ (Nat.lt_succ_self _) hfits)
  · intro hfirst now hnow hclock
    apply (hmiss now).mpr
    have hone : (0 : Int) ≤ Number.one := Int.natCast_nonneg _
    rw [Number.ofNat_eq hfits, Number.ofNat_eq (by omega)] at hfirst
    rw [Number.ofNat_eq hclock, Number.ofNat_eq (by omega)]
    apply Number.lt_sub_of_later _ _ hfirst
    · exact Int.mul_nonneg (Int.natCast_nonneg _) hone
    · exact Int.mul_le_mul_of_nonneg_right (by omega) hone

theorem ensure_started_iff {ι : Type} (holding : Holding) (now : Number) (caller : ι) :
    ((Supply.mk holding .idle).ensure now caller).2 = .started ↔ holding.current? now = none := by
  rw [Supply.ensure]
  cases holding.current? now with
  | none => exact iff_of_true rfl rfl
  | some snapshot => exact iff_of_false nofun nofun

end Holding

namespace Shelf

variable {w : Shelf}

theorem held_run_of_moments_nil {events : List Event} (h : w.moments events = []) :
    (w.run events).holding.held = w.holding.held := by
  induction events generalizing w with
  | nil => rfl
  | cons event events ih =>
    obtain ⟨hnow, hlater⟩ : (w.moment? event).toList = [] ∧ (w.step event).moments events = [] :=
      List.append_eq_nil_iff.mp h
    have hkept : (w.step event).holding.held = w.holding.held := by
      cases turn_step w event with
      | kept ht hm hh hs => exact hh
      | touched ha ht hm hh hs => simp [hm] at hnow
      | taken ha ht hm hz hf hh hs => simp [hm] at hnow
    exact (ih hlater).trans hkept

theorem held_step_of_taken {event : Event} {s : Stored} (h : w.taken? event = some s) :
    ∃ archive, (w.step event).holding.held =
      some { data := s.data, archive, fingerprint := s.fingerprint, since := s.since } := by
  cases turn_step w event with
  | kept ht hm hh hs => cases ht.symm.trans h
  | touched ha ht hm hh hs => cases ht.symm.trans h
  | taken ha ht hm hz hf hh hs =>
    obtain rfl := Option.some.inj (ht.symm.trans h)
    exact ⟨_, hh⟩

/-- An archive that was brought back lapses after its lifetime exactly if it is out of date at the
first millisecond after that. It is so if the time in the file is not later than the moment at which
the archive was brought back, and it is not so if the time is later by a millisecond or more, or no
number at all. -/
theorem lapses_restored_iff {s : Stored} {others : List Event} {start lifetime : Nat}
    (hlifetime : w.holding.lifetime = .ofNat lifetime) (hfits : start + lifetime + 1 < 2 ^ 53)
    (hloaded : w.taken? .load = some s) (hquiet : (w.step .load).moments others = []) :
    (((w.step .load).run others).holding.LapsesAfter start lifetime ↔
        (Number.ofNat lifetime).lt ((Number.ofNat (start + lifetime + 1)).sub s.since) = true) ∧
      (s.since ≠ .nan → ¬ (Number.ofNat start).lt s.since →
        ((w.step .load).run others).holding.LapsesAfter start lifetime) ∧
      (¬ s.since.lt (.ofNat (start + 1)) →
        ¬ ((w.step .load).run others).holding.LapsesAfter start lifetime) ∧
      ∀ (ι : Type) (now : Number) (caller : ι),
        ((Supply.mk ((w.step .load).run others).holding .idle).ensure now caller).2 = .started ↔
          ((w.step .load).run others).holding.current? now = none := by
  obtain ⟨archive, hbrought⟩ := held_step_of_taken hloaded
  have hheld := (held_run_of_moments_nil hquiet).trans hbrought
  have hkept : ((w.step .load).run others).holding.lifetime = .ofNat lifetime := by
    rw [lifetime_run, lifetime_step, hlifetime]
  have hlapses := Holding.lapsesAfter_iff hheld hkept hfits
  refine ⟨hlapses, ?_, ?_, ?_⟩
  · intro hnumber hpast
    exact hlapses.mpr (Number.lt_sub_of_not_later hfits hnumber hpast)
  · intro hahead hlapse
    exact Number.not_lt_sub_of_later hfits hahead (hlapses.mp hlapse)
  · intro ι now caller
    exact Holding.ensure_started_iff _ now caller

def googleDated (since : Number) : Stored :=
  { data := Holding.googleArchive Holding.googleCheck, fingerprint := "v1", since }

def besideDated (since : Number) : Shelf :=
  opened (.ofNat 1000) Holding.vacant.directory
    { Holding.vacant.file with site := .made (.file (googleDated since).pack) none } false

/-- The archive was known to be current before it was brought back, and the file is removed then. -/
theorem lapses_restored_iff_removed :
    (besideDated (.ofNat 500)).taken? .load = some (googleDated (.ofNat 500)) ∧
      (((besideDated (.ofNat 500)).step .load).run [.disturb .unmade]).holding.LapsesAfter 600 1000 := by
  have hloaded : (besideDated (.ofNat 500)).taken? .load = some (googleDated (.ofNat 500)) := by
    decide +kernel
  have hquiet : ((besideDated (.ofNat 500)).step .load).moments [.disturb .unmade] = [] := rfl
  have hlifetime : (besideDated (.ofNat 500)).holding.lifetime = .ofNat 1000 := by
    rw [besideDated, opened]
  have hfits : 600 + 1000 + 1 < 2 ^ 53 := by decide
  obtain ⟨-, hpast, -⟩ := lapses_restored_iff hlifetime hfits hloaded hquiet
  have hnumber : (googleDated (.ofNat 500)).since ≠ .nan := by decide +kernel
  have hearlier : ¬ (Number.ofNat 600).lt (googleDated (.ofNat 500)).since := by decide +kernel
  exact ⟨hloaded, hpast hnumber hearlier⟩

/-- The time in the file is five seconds, and the archive is brought back when the clock shows none.
It still counts as current when its lifetime of one second has passed, as it does at any time if
what stands in the file is no number. -/
theorem not_lapses_restored_dated_later :
    (besideDated (.ofNat 5000)).answer? .load = some (.ok true) ∧
      ¬ ((besideDated (.ofNat 5000)).step .load).holding.LapsesAfter 0 1000 ∧
      (besideDated .nan).answer? .load = some (.ok true) ∧
      ¬ ((besideDated .nan).step .load).holding.LapsesAfter 0 1000 := by
  have hlater : ((besideDated (.ofNat 5000)).step .load).holding.current? (.ofNat 1001) ≠ none := by
    decide +kernel
  have hnan : ((besideDated .nan).step .load).holding.current? (.ofNat 1001) ≠ none := by
    decide +kernel
  refine ⟨by decide +kernel, ?_, by decide +kernel, ?_⟩
  · intro hlapses
    exact hlater (hlapses 1001 (by decide) (by decide))
  · intro hlapses
    exact hnan (hlapses 1001 (by decide) (by decide))

end Shelf

end DomainRules
