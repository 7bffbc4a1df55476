import DomainRules.Proofs.History
import DomainRules.Proofs.Holding.Basic
import DomainRules.Proofs.Metrics.Series
import Mathlib.Data.List.Induction

/-!
The archive that is held, through all that may be done with it: archives are taken up, brought back
from the file, or known to be current still, at any times, while others change the file. What is held
stays together, and whatever fails leaves it alone.
-/
namespace DomainRules

structure Shelf where
  holding : Holding
  metrics : Metrics := {}

namespace Shelf

inductive Event where
  | set (now : Number) (data : Bytes) (fingerprint : String)
  | touch (now : Number)
  | load
  /-- Somebody else changes what is at the path of the file. -/
  | disturb (site : FileSlot.Site)

def note {α : Type} (w : Shelf) (told : Holding × α × List Notice) : Shelf :=
  { holding := told.1, metrics := w.metrics.noteAll told.2.2 }

def step (w : Shelf) : Event → Shelf
  | .set now data fingerprint => w.note (w.holding.set now data fingerprint)
  | .touch now => { w with holding := w.holding.touch now }
  | .load => w.note w.holding.load
  | .disturb site => { w with holding := { w.holding with file := { w.holding.file with site } } }

def run (w : Shelf) (events : List Event) : Shelf := events.foldl step w

theorem run_concat (w : Shelf) (events : List Event) (event : Event) :
    w.run (events ++ [event]) = (w.run events).step event := by
  rw [run, List.foldl_append]
  rfl

/-- Whatever others do to the file is a disturbance. -/
theorem exists_disturb (w : Shelf) {data : Bytes} {next : FileSlot}
    (h : w.holding.file.write data = .ok next ∨ w.holding.file.remove = .ok next ∨
      w.holding.file.makeDirectory = .ok next) :
    ∃ site, w.step (.disturb site) = { w with holding := { w.holding with file := next } } := by
  obtain ⟨site, rfl⟩ := FileSlot.exists_site_of_others h
  exact ⟨site, rfl⟩

def opened (lifetime : Number) (directory : String) (file : FileSlot) (isPersistent : Bool) : Shelf :=
  { holding := { lifetime, directory, file, isPersistent } }

def size (w : Shelf) : Nat := w.metrics.value .archiveSize ""

def unstored (w : Shelf) : Nat := w.metrics.value .persistErrors ""

/-- What a call answers: whether it brought an archive, or why it failed. -/
def answer? (w : Shelf) : Event → Option (Except Failure Bool)
  | .set now data fingerprint => some ((w.holding.set now data fingerprint).2.1.map fun _ => true)
  | .load => some w.holding.load.2.1
  | _ => none

/-- The bytes, the version and the time that a call offers, or the file that it reads. -/
def offered? (w : Shelf) : Event → Option Stored
  | .set now data fingerprint => some { data, fingerprint, since := now }
  | .load => w.holding.file.data?.bind Stored.unpack?
  | _ => none

/-- What is taken up of that, if the call succeeds. -/
def taken? (w : Shelf) (event : Event) : Option Stored :=
  match w.answer? event with
  | some (.ok true) => w.offered? event
  | _ => none

/-- When the archive that is held was known to be current. -/
def moment? (w : Shelf) : Event → Option Number
  | .touch now => some now
  | event => (w.taken? event).map (·.since)

def taken (w : Shelf) (events : List Event) : List Stored := History.seen step taken? w events

def moments (w : Shelf) (events : List Event) : List Number := History.seen step moment? w events

structure Kept (first : Shelf) (events : List Event) : Prop where
  empty : (first.run events).holding.held = none ↔ first.taken events = []
  /-- The bytes and the version are those that were taken up together last, the archive is the one
  that the bytes are, and the size is theirs. The time is when it was last known to be current. -/
  held : ∀ h, (first.run events).holding.held = some h →
    Archive.ofZip first.holding.directory h.data = .ok h.archive ∧ h.fingerprint ≠ "" ∧
      (first.run events).size = h.data.length ∧
      (∃ s, (first.taken events).getLast? = some s ∧ s.data = h.data ∧
        s.fingerprint = h.fingerprint) ∧
      (first.moments events).getLast? = some h.since

/-- What is held after some events, and what becomes of it if the next call fails. -/
structure Consistent (first : Shelf) (events : List Event) : Prop extends Kept first events where
  /-- A call that fails, or that finds no file, leaves what is held and its size. -/
  atomic : ∀ event answer, (first.run events).answer? event = some answer → answer ≠ .ok true →
    ((first.run events).step event).holding.held = (first.run events).holding.held ∧
      ((first.run events).step event).size = (first.run events).size

variable {w : Shelf}

theorem size_noteAll_cons (metrics : Metrics) (data : Bytes) {notices : List Notice}
    (h : notices = [] ∨ notices = [.log .info "Loaded archive snapshot"] ∨
      notices = [.tick .persistErrors, .log .error "Failed to persist archive snapshot"]) :
    (metrics.noteAll (Holding.sizeNotice data :: notices)).value .archiveSize "" = data.length := by
  have hsize : (metrics.note (Holding.sizeNotice data)).value .archiveSize "" = data.length :=
    Metrics.value_note_gauge metrics .archiveSize data.length
  rcases h with rfl | rfl | rfl
  · exact hsize
  · exact hsize
  · have hother : ((metrics.note (Holding.sizeNotice data)).note (.tick .persistErrors)).value
        .archiveSize "" = (metrics.note (Holding.sizeNotice data)).value .archiveSize "" :=
      Metrics.value_note_tick_of_ne (by decide)
    exact hother.trans hsize

inductive Turn (w next : Shelf) (event : Event) : Prop where
  /-- Nothing, and if it was a call it failed or found no file. -/
  | kept (ht : w.taken? event = none) (hm : w.moment? event = none)
    (hh : next.holding.held = w.holding.held) (hs : next.size = w.size)
  | touched {now : Number} (ha : w.answer? event = none) (ht : w.taken? event = none)
    (hm : w.moment? event = some now)
    (hh : next.holding.held = w.holding.held.map fun h => { h with since := now })
    (hs : next.size = w.size)
  | taken {s : Stored} {archive : Archive} (ha : w.answer? event = some (.ok true))
    (ht : w.taken? event = some s) (hm : w.moment? event = some s.since)
    (hz : Archive.ofZip w.holding.directory s.data = .ok archive) (hf : s.fingerprint ≠ "")
    (hh : next.holding.held =
      some { data := s.data, archive, fingerprint := s.fingerprint, since := s.since })
    (hs : next.size = s.data.length)

theorem moment?_of_answer {event : Event} {answer : Except Failure Bool}
    (ha : w.answer? event = some answer) :
    w.moment? event = (w.taken? event).map (·.since) := by
  cases event with
  | set now data fingerprint => rfl
  | load => rfl
  | touch now => cases ha
  | disturb site => cases ha

theorem Turn.of_failed {next : Shelf} {event : Event} {answer : Except Failure Bool}
    (ha : w.answer? event = some answer) (hne : answer ≠ .ok true)
    (hh : next.holding.held = w.holding.held) (hs : next.size = w.size) : Turn w next event := by
  have ht : w.taken? event = none := by
    rw [taken?, ha]
    split
    · rename_i he
      exact absurd (Option.some.inj he) hne
    · rfl
  refine .kept ht ?_ hh hs
  rw [moment?_of_answer ha, ht]
  rfl

theorem Turn.of_succeeded {next : Shelf} {event : Event} {s : Stored} {archive : Archive}
    (ha : w.answer? event = some (.ok true)) (ho : w.offered? event = some s)
    (hz : Archive.ofZip w.holding.directory s.data = .ok archive) (hf : s.fingerprint ≠ "")
    (hh : next.holding.held =
      some { data := s.data, archive, fingerprint := s.fingerprint, since := s.since })
    (hs : next.size = s.data.length) : Turn w next event := by
  have ht : w.taken? event = some s := by
    rw [taken?, ha]
    exact ho
  refine .taken ha ht ?_ hz hf hh hs
  rw [moment?_of_answer ha, ht]
  rfl

theorem turn_set (w : Shelf) (now : Number) (data : Bytes) (fingerprint : String) :
    Turn w (w.step (.set now data fingerprint)) (.set now data fingerprint) := by
  have hstep := Holding.set_step w.holding now data fingerprint
  have hanswer : w.answer? (.set now data fingerprint) =
      some ((w.holding.set now data fingerprint).2.1.map fun _ => true) := rfl
  have hoffered : w.offered? (.set now data fingerprint) =
      some { data, fingerprint, since := now } := rfl
  rw [step]
  revert hanswer
  generalize w.holding.set now data fingerprint = told at hstep
  intro hanswer
  cases hstep with
  | refused hno => exact .of_failed hanswer nofun rfl rfl
  | taken hf ha hp =>
    exact .of_succeeded hanswer hoffered ha hf rfl (size_noteAll_cons w.metrics data (.inl rfl))
  | stored hf ha hs =>
    exact .of_succeeded hanswer hoffered ha hf rfl (size_noteAll_cons w.metrics data (.inl rfl))
  | unstored hf ha hs =>
    exact .of_succeeded hanswer hoffered ha hf rfl
      (size_noteAll_cons w.metrics data (.inr (.inr rfl)))

theorem turn_load (w : Shelf) : Turn w (w.step .load) .load := by
  have hstep := Holding.load_step w.holding
  have hanswer : w.answer? .load = some w.holding.load.2.1 := rfl
  rw [step]
  revert hanswer
  generalize w.holding.load = told at hstep
  intro hanswer
  cases hstep with
  | failed => exact .of_failed hanswer nofun rfl rfl
  | absent hr => exact .of_failed hanswer nofun rfl rfl
  | loaded hr hs ha =>
    rename_i bytes s archive
    have hoffered : w.offered? .load = some s := by
      rw [offered?, FileSlot.data?_of_read hr]
      exact hs
    exact .of_succeeded hanswer hoffered ha (Stored.fingerprint_ne_empty hs) rfl
      (size_noteAll_cons w.metrics s.data (.inr (.inl rfl)))

theorem turn_step (w : Shelf) (event : Event) : Turn w (w.step event) event := by
  cases event with
  | set now data fingerprint => exact turn_set w now data fingerprint
  | load => exact turn_load w
  | touch now => exact .touched rfl rfl rfl rfl rfl
  | disturb site => exact .kept rfl rfl rfl rfl

theorem directory_step (w : Shelf) (event : Event) :
    (w.step event).holding.directory = w.holding.directory := by
  cases event with
  | set now data fingerprint => exact (Holding.set_step w.holding now data fingerprint).directory_eq
  | load => exact (Holding.load_step w.holding).directory_eq
  | touch now => rfl
  | disturb site => rfl

theorem lifetime_step (w : Shelf) (event : Event) :
    (w.step event).holding.lifetime = w.holding.lifetime := by
  cases event with
  | set now data fingerprint => exact (Holding.set_step w.holding now data fingerprint).lifetime_eq
  | load => exact (Holding.load_step w.holding).lifetime_eq
  | touch now => rfl
  | disturb site => rfl

theorem lifetime_run (w : Shelf) (events : List Event) :
    (w.run events).holding.lifetime = w.holding.lifetime := by
  induction events generalizing w with
  | nil => rfl
  | cons event events ih => exact (ih (w.step event)).trans (lifetime_step w event)

theorem directory_run (w : Shelf) (events : List Event) :
    (w.run events).holding.directory = w.holding.directory := by
  induction events generalizing w with
  | nil => rfl
  | cons event events ih => exact (ih (w.step event)).trans (directory_step w event)

theorem taken_concat (first : Shelf) (events : List Event) (event : Event) :
    first.taken (events ++ [event]) =
      first.taken events ++ ((first.run events).taken? event).toList :=
  History.seen_concat step taken? first events event

theorem moments_concat (first : Shelf) (events : List Event) (event : Event) :
    first.moments (events ++ [event]) =
      first.moments events ++ ((first.run events).moment? event).toList :=
  History.seen_concat step moment? first events event

theorem Kept.concat {first : Shelf} {events : List Event} (h : Kept first events) (event : Event) :
    Kept first (events ++ [event]) := by
  have hdirectory := directory_run first events
  -- What an event does to what is held is one of three things, and each of them keeps both facts.
  constructor
  · rw [run_concat, taken_concat]
    cases turn_step (first.run events) event with
    | kept ht hm hh hs =>
      rw [ht, hh, Option.toList_none, List.append_nil]
      exact h.empty
    | touched ha ht hm hh hs =>
      rw [ht, hh, Option.toList_none, List.append_nil, Option.map_eq_none_iff]
      exact h.empty
    | taken ha ht hm hz hf hh hs => simp [ht, hh]
  · intro held hheld
    rw [run_concat] at hheld ⊢
    rw [taken_concat, moments_concat]
    cases turn_step (first.run events) event with
    | kept ht hm hh hs =>
      rw [ht, hm, hs, Option.toList_none, Option.toList_none, List.append_nil, List.append_nil]
      exact h.held held (hh ▸ hheld)
    | touched ha ht hm hh hs =>
      rw [hh] at hheld
      obtain ⟨old, hold, rfl⟩ := Option.map_eq_some_iff.mp hheld
      obtain ⟨hz, hf, hsize, hlast, -⟩ := h.held old hold
      rw [ht, hm, hs, Option.toList_none, List.append_nil]
      exact ⟨hz, hf, hsize, hlast, List.getLast?_concat⟩
    | taken ha ht hm hz hf hh hs =>
      obtain rfl := Option.some.inj (hh.symm.trans hheld)
      rw [ht, hm]
      exact ⟨hdirectory ▸ hz, hf, hs, ⟨_, List.getLast?_concat, rfl, rfl⟩, List.getLast?_concat⟩

theorem Kept.run (lifetime : Number) (directory : String) (file : FileSlot) (isPersistent : Bool)
    (events : List Event) : Kept (opened lifetime directory file isPersistent) events := by
  induction events using List.reverseRecOn with
  | nil => exact ⟨iff_of_true rfl rfl, fun h hh => nomatch hh⟩
  | append_singleton events event ih => exact ih.concat event

/-- Whatever is set, brought back and put in the way, what is held belongs together, and a call that
fails changes nothing about it. -/
theorem consistent_run (lifetime : Number) (directory : String) (file : FileSlot)
    (isPersistent : Bool) (events : List Event) :
    Consistent (opened lifetime directory file isPersistent) events where
  toKept := Kept.run lifetime directory file isPersistent events
  atomic event answer ha hne := by
    cases turn_step ((opened lifetime directory file isPersistent).run events) event with
    | kept ht hm hh hs => exact ⟨hh, hs⟩
    | touched hnone => cases hnone.symm.trans ha
    | taken hsome =>
      have he := Option.some.inj (hsome.symm.trans ha)
      exact absurd he.symm hne

end Shelf

end DomainRules
