import DomainRules.Proofs.Memo.Clock
import DomainRules.Proofs.Number.Order
import Mathlib.Data.List.Dedup
import Mathlib.Logic.Function.Basic

namespace DomainRules.Memo

/-- Whether a text is older than texts are kept. Without a lifetime none is. -/
def isAged (lifetime : Nat) (now : Number) (k : Kept) : Bool :=
  lifetime ≠ 0 && (Number.ofNat lifetime).lt (now.sub k.since)

/-- Texts under their keys, in no order and without a bound. -/
abbrev Table := String → Option Kept

namespace Access

def stored? : Access → Option Kept
  | .stored k => some k
  | .asked _ _ _ => none
  | .swept _ => none

/-- What an access does to a map. A text that is too old goes when it is asked for. -/
def onTable (lifetime : Nat) (table : Table) : Access → Table
  | .stored k => Function.update table k.key (some k)
  | .asked key _ now => Function.update table key ((table key).filter (!isAged lifetime now ·))
  | .swept now => fun key => (table key).filter (!isAged lifetime now ·)

end Access

def stored (accesses : List Access) : List Kept := accesses.filterMap Access.stored?

def storedKeys (accesses : List Access) : List String := ((stored accesses).map (·.key)).dedup

def latest (key : String) (accesses : List Access) : Option Kept :=
  ((stored accesses).filter (·.key = key)).getLast?

def tableOf (lifetime : Nat) (accesses : List Access) : Table :=
  accesses.foldl (Access.onTable lifetime) fun _ => none

def agedKeys (lifetime : Nat) (now : Number) (accesses : List Access) : List String :=
  (storedKeys accesses).filter fun key => (tableOf lifetime accesses key).any (isAged lifetime now)

section Age

variable {lifetime : Nat} {k : Kept}

def IsDated (clock : Nat) (k : Kept) : Prop :=
  ∃ units : Nat, 0 < units ∧ units ≤ clock ∧ k.since = .finite units

theorem IsDated.mono {earlier later : Nat} (h : IsDated earlier k) (hle : earlier ≤ later) :
    IsDated later k := by
  obtain ⟨units, hpos, hunits, hsince⟩ := h
  exact ⟨units, hpos, hunits.trans hle, hsince⟩

theorem isAged_mono {earlier later : Nat} (hdated : IsDated earlier k) (hle : earlier ≤ later)
    (h : isAged lifetime (.finite earlier) k = true) : isAged lifetime (.finite later) k = true := by
  obtain ⟨units, -, hunits, hsince⟩ := hdated
  rw [isAged, Bool.and_eq_true, hsince] at h ⊢
  exact ⟨h.1, Number.lt_sub_of_le hunits hle h.2⟩

end Age

section Stored

theorem stored_concat (accesses : List Access) (access : Access) :
    stored (accesses ++ [access]) = stored accesses ++ access.stored?.toList := by
  rw [stored, List.filterMap_append, stored]
  cases access <;> rfl

theorem stored_concat_of_none (accesses : List Access) {access : Access}
    (h : access.stored? = none) : stored (accesses ++ [access]) = stored accesses := by
  rw [stored_concat, h, Option.toList_none, List.append_nil]

theorem mem_stored_append {k : Kept} {earlier : List Access} (h : k ∈ stored earlier)
    (later : List Access) : k ∈ stored (earlier ++ later) := by
  rw [stored, List.filterMap_append]
  exact List.mem_append_left _ h

theorem latest_concat_stored (key : String) (accesses : List Access) (k : Kept) :
    latest key (accesses ++ [.stored k]) = if key = k.key then some k else latest key accesses := by
  rw [latest, stored_concat, Access.stored?, Option.toList_some, History.getLast?_filter_concat]
  by_cases hk : key = k.key
  · rw [if_pos (decide_eq_true hk.symm), if_pos hk]
  · rw [if_neg (by simpa using Ne.symm hk), if_neg hk, latest]

theorem tableOf_concat (lifetime : Nat) (accesses : List Access) (access : Access) :
    tableOf lifetime (accesses ++ [access]) = access.onTable lifetime (tableOf lifetime accesses) :=
  List.foldl_concat ..

theorem mem_stored_of_latest {key : String} {accesses : List Access} {k : Kept}
    (h : latest key accesses = some k) : k ∈ stored accesses ∧ k.key = key := by
  obtain ⟨hmem, hkey⟩ := List.mem_filter.mp (List.mem_of_getLast? h)
  exact ⟨hmem, of_decide_eq_true hkey⟩

end Stored

/-- The map holds what was stored last, unless that is too old. -/
structure Recalls (lifetime clock : Nat) (accesses : List Access) : Prop where
  latest_of_table : ∀ key k, tableOf lifetime accesses key = some k → latest key accesses = some k
  table_of_latest : ∀ key k, latest key accesses = some k →
    tableOf lifetime accesses key = some k ∨ isAged lifetime (.finite clock) k = true
  dated : ∀ k ∈ stored accesses, IsDated clock k

namespace Recalls

variable {lifetime clock : Nat} {accesses : List Access}

theorem opened : Recalls lifetime clock [] where
  latest_of_table key k h := by cases h
  table_of_latest key k h := by cases h
  dated k h := by cases h

theorem mem_stored (h : Recalls lifetime clock accesses) {key : String} {k : Kept}
    (hk : tableOf lifetime accesses key = some k) : k ∈ stored accesses ∧ k.key = key :=
  mem_stored_of_latest (h.latest_of_table key k hk)

theorem pass (h : Recalls lifetime clock accesses) {later : Nat} (hle : clock ≤ later) :
    Recalls lifetime later accesses where
  latest_of_table := h.latest_of_table
  table_of_latest key k hk := by
    have hdated := h.dated k (mem_stored_of_latest hk).1
    exact (h.table_of_latest key k hk).imp_right (isAged_mono hdated hle)
  dated k hk := (h.dated k hk).mono hle

theorem store (h : Recalls lifetime clock accesses) {k : Kept} (hdated : IsDated clock k) :
    Recalls lifetime clock (accesses ++ [.stored k]) where
  latest_of_table key other ho := by
    rw [tableOf_concat, Access.onTable, Function.update_apply] at ho
    rw [latest_concat_stored]
    by_cases hk : key = k.key
    · rwa [if_pos hk] at ho ⊢
    · rw [if_neg hk] at ho ⊢
      exact h.latest_of_table key other ho
  table_of_latest key other ho := by
    rw [latest_concat_stored] at ho
    rw [tableOf_concat, Access.onTable, Function.update_apply]
    by_cases hk : key = k.key
    · rw [if_pos hk] at ho ⊢
      exact .inl ho
    · rw [if_neg hk] at ho ⊢
      exact h.table_of_latest key other ho
  dated other ho := by
    rw [stored_concat] at ho
    rcases List.mem_append.mp ho with ho | ho
    · exact h.dated other ho
    · rw [List.mem_singleton.mp ho]
      exact hdated

theorem drop (h : Recalls lifetime clock accesses) {access : Access} (hnone : access.stored? = none)
    (hdrop : ∀ key, tableOf lifetime (accesses ++ [access]) key = tableOf lifetime accesses key ∨
      tableOf lifetime (accesses ++ [access]) key =
        (tableOf lifetime accesses key).filter (!isAged lifetime (.finite clock) ·)) :
    Recalls lifetime clock (accesses ++ [access]) where
  latest_of_table key k hk := by
    rw [latest, stored_concat_of_none accesses hnone]
    apply h.latest_of_table
    rcases hdrop key with he | he
    · rwa [← he]
    · rw [he, Option.filter_eq_some_iff] at hk
      exact hk.1
  table_of_latest key k hk := by
    rw [latest, stored_concat_of_none accesses hnone] at hk
    by_cases haged : isAged lifetime (.finite clock) k = true
    · exact .inr haged
    · have hold := (h.table_of_latest key k hk).resolve_right haged
      refine .inl ?_
      rcases hdrop key with he | he
      · exact he.trans hold
      · rw [he, hold, Option.filter_eq_some_iff]
        exact ⟨rfl, by simpa using haged⟩
  dated k hk := by
    rw [stored_concat_of_none accesses hnone] at hk
    exact h.dated k hk

theorem access (h : Recalls lifetime clock accesses) (hpos : 0 < clock) {access : Access}
    (hnow : access.now = .finite clock) : Recalls lifetime clock (accesses ++ [access]) := by
  cases access with
  | stored k => exact h.store ⟨clock, hpos, Nat.le_refl clock, hnow⟩
  | asked asked fingerprint now =>
    have hclock : now = .finite clock := hnow
    apply h.drop rfl
    intro key
    rw [tableOf_concat, Access.onTable, Function.update_apply, hclock]
    by_cases hk : key = asked
    · rw [if_pos hk, hk]
      exact .inr rfl
    · rw [if_neg hk]
      exact .inl rfl
  | swept now =>
    have hclock : now = .finite clock := hnow
    apply h.drop rfl
    intro key
    rw [tableOf_concat, Access.onTable, hclock]
    exact .inr rfl

end Recalls

end DomainRules.Memo
