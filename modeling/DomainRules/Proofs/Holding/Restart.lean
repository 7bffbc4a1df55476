import DomainRules.Proofs.Holding.Shelf
import DomainRules.Proofs.MessagePack.Spelling
import DomainRules.Proofs.Zip.Damage

namespace DomainRules

namespace Holding

end Holding

namespace Shelf

/-- An archive is set, or known to be current, at a time that a clock may show. -/
inductive Event.IsTimed : Event → Prop where
  | set {now : Number} (h : now.IsSafe) (data : Bytes) (fingerprint : String) :
    IsTimed (.set now data fingerprint)
  | touch {now : Number} (h : now.IsSafe) : IsTimed (.touch now)

inductive Filing (w next : Shelf) (event : Event) : Prop where
  | idle (ht : w.taken? event = none) (hfile : next.holding.file = w.holding.file)
    (hu : next.unstored = w.unstored)
  | filed {s : Stored} (ht : w.taken? event = some s) (hlength : s.pack.length ≤ Stored.longest)
    (hread : next.holding.file.read = .ok s.pack) (hu : next.unstored = w.unstored)
  | failed (hu : next.unstored = w.unstored + 1)

variable {w : Shelf} {event : Event}

theorem unstored_noteAll_size (metrics : Metrics) (data : Bytes) :
    (metrics.noteAll [Holding.sizeNotice data]).value .persistErrors "" =
      metrics.value .persistErrors "" :=
  Metrics.value_note_gauge_of_ne (by decide) data.length

theorem unstored_noteAll_failed (metrics : Metrics) (data : Bytes) :
    (metrics.noteAll [Holding.sizeNotice data, .tick .persistErrors,
      .log .error "Failed to persist archive snapshot"]).value .persistErrors "" =
      metrics.value .persistErrors "" + 1 :=
  calc ((metrics.note (Holding.sizeNotice data)).note (.tick .persistErrors)).value .persistErrors ""
      = (metrics.note (Holding.sizeNotice data)).value .persistErrors "" + 1 :=
        Metrics.value_note_tick _ _
    _ = metrics.value .persistErrors "" + 1 :=
        congrArg (· + 1) (unstored_noteAll_size metrics data)

theorem taken?_set (w : Shelf) (now : Number) (data : Bytes) (fingerprint : String) :
    w.taken? (.set now data fingerprint) =
      match (w.holding.set now data fingerprint).2.1 with
      | .ok _ => some { data, fingerprint, since := now }
      | .error _ => none := by
  rw [taken?, answer?, offered?]
  cases (w.holding.set now data fingerprint).2.1 <;> rfl

theorem filing_step (hp : w.holding.isPersistent = true) (h : event.IsTimed) :
    Filing w (w.step event) event := by
  cases h with
  | touch h => exact .idle rfl rfl rfl
  | set h data fingerprint =>
    rename_i now
    have hstep := Holding.set_step w.holding now data fingerprint
    have htaken := taken?_set w now data fingerprint
    rw [step]
    -- The outcome becomes a variable, so that its cases decide what was taken up as well.
    revert htaken
    generalize w.holding.set now data fingerprint = told at hstep
    intro htaken
    cases hstep with
    | refused hno => exact .idle htaken rfl rfl
    | taken hf ha hno => cases hp.symm.trans hno
    | stored hf ha hs =>
      obtain ⟨hlength, hread⟩ := Holding.store_ok hs
      exact .filed htaken hlength hread (unstored_noteAll_size w.metrics data)
    | unstored hf ha hs => exact .failed (unstored_noteAll_failed w.metrics data)

theorem settings_step (h : event.IsTimed) :
    (w.step event).holding.lifetime = w.holding.lifetime ∧
      (w.step event).holding.isPersistent = w.holding.isPersistent := by
  refine ⟨lifetime_step w event, ?_⟩
  cases h with
  | touch h => rfl
  | set h data fingerprint => exact (Holding.set_step w.holding _ data fingerprint).isPersistent_eq

section

variable {first : Shelf} {events : List Event}

/-- What the file is to what is held, in a place that stores its archives. -/
structure Mirrored (first : Shelf) (events : List Event) : Prop where
  isPersistent : (first.run events).holding.isPersistent = true
  lifetime : (first.run events).holding.lifetime = first.holding.lifetime
  unstored_le : first.unstored ≤ (first.run events).unstored
  /-- Unless an archive failed to be stored, the file holds the last one. -/
  file : (first.run events).unstored = first.unstored →
    ∀ s, (first.taken events).getLast? = some s →
      (first.run events).holding.file.read = .ok s.pack ∧ s.pack.length ≤ Stored.longest

theorem Mirrored.concat (h : Mirrored first events) (hevent : event.IsTimed) :
    Mirrored first (events ++ [event]) := by
  have hfiling := filing_step h.isPersistent hevent
  have hle := h.unstored_le
  obtain ⟨hlifetime, hpersistent⟩ : _ ∧ _ := settings_step hevent
  constructor
  · rw [run_concat, hpersistent]
    exact h.isPersistent
  · rw [run_concat, hlifetime, h.lifetime]
  · rw [run_concat]
    cases hfiling <;> omega
  · -- The count only grows, so nothing failed before this event if nothing has failed after it.
    rw [run_concat, taken_concat]
    intro hwritten s hs
    cases hfiling with
    | idle ht hfile hu =>
      rw [ht, Option.toList_none, List.append_nil] at hs
      rw [hfile]
      exact h.file (by omega) s hs
    | filed ht hlength hread hu =>
      rw [ht, Option.toList_some, List.getLast?_concat] at hs
      obtain rfl := Option.some.inj hs
      exact ⟨hread, hlength⟩
    | failed hu => omega

theorem Mirrored.run (hp : first.holding.isPersistent = true)
    (hevents : ∀ event ∈ events, event.IsTimed) : Mirrored first events := by
  induction events using List.reverseRecOn with
  | nil => exact ⟨hp, rfl, Nat.le_refl _, nofun⟩
  | append_singleton events event ih =>
    have hevent : event.IsTimed := hevents event (by simp)
    exact (ih fun other hother => hevents other (by simp [hother])).concat hevent

end

end Shelf

end DomainRules
