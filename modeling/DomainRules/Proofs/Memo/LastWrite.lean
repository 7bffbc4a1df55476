import DomainRules.Proofs.Keyed
import DomainRules.Proofs.Memo.Table
import Mathlib.Data.List.Perm.Subperm

namespace DomainRules.Memo

/-- The kept texts are the map after some accesses: a text is found if and only if it was stored
last and is not too old, and a sweep removes those that are too old, which nobody notices. -/
structure IsLastWrite (lifetime clock : Nat) (accesses : List Access) (store : Store) : Prop where
  find?_eq : ∀ key, store.find? key = tableOf lifetime accesses key
  get_iff : ∀ key fingerprint text,
    (store.get (.finite clock) key (some fingerprint)).2 = some text ↔
      ∃ k, latest key accesses = some k ∧ k.text = text ∧ k.fingerprint = some fingerprint ∧
        isAged lifetime (.finite clock) k = false
  sweptCount_eq :
    store.sweptCount (.finite clock) = (agedKeys lifetime (.finite clock) accesses).length
  find?_sweep : ∀ key, (store.sweep (.finite clock)).find? key =
    if key ∈ agedKeys lifetime (.finite clock) accesses then none else store.find? key
  get_sweep : ∀ later, clock ≤ later → ∀ key fingerprint,
    ((store.sweep (.finite clock)).get (.finite later) key fingerprint).2 =
      (store.get (.finite later) key fingerprint).2

namespace Store

variable {store : Store} {key : String} {k : Kept}

def keys (store : Store) : List String := store.kept.map (·.key)

theorem isExpired_eq {clock : Nat} (hdated : IsDated clock k) (now : Number) :
    store.isExpired now k = isAged store.lifetime now k := by
  obtain ⟨units, hpos, -, hsince⟩ := hdated
  have hne : decide (k.since ≠ .finite 0) = true := by
    apply decide_eq_true
    rw [hsince]
    intro he
    have hzero : (units : Int) = 0 := Number.finite.inj he
    omega
  rw [Store.isExpired, hne, Bool.and_true, isAged]

section Keys

variable (hnodup : store.keys.Nodup)

include hnodup

theorem find?_eq_some_iff : store.find? key = some k ↔ k ∈ store.kept ∧ k.key = key := by
  constructor
  · exact mem_of_find?
  · rintro ⟨hmem, hkey⟩
    rw [← hkey]
    exact Keyed.find?_eq_some hnodup hmem

theorem find?_sweep (now : Number) (key : String) :
    (store.sweep now).find? key = (store.find? key).filter (!store.isExpired now ·) := by
  have hswept : (store.sweep now).keys.Nodup :=
    hnodup.sublist (List.filter_sublist.map _)
  apply Option.ext
  intro k
  rw [find?_eq_some_iff hswept, Option.filter_eq_some_iff, find?_eq_some_iff hnodup, sweep,
    List.mem_filter]
  exact and_right_comm

theorem hasRoom_of_keys {keys : List String} (hlength : keys.length ≤ store.bound)
    (hkept : ∀ k ∈ store.kept, k.key ∈ keys) (hkey : key ∈ keys) : store.hasRoom key = true := by
  unfold hasRoom
  cases hk : store.find? key with
  | some k => rfl
  | none =>
    have hnew : key ∉ store.keys := by
      intro hmem
      obtain ⟨k, hkmem, hkkey⟩ := List.mem_map.mp hmem
      have hfound := (find?_eq_some_iff hnodup).mpr ⟨hkmem, hkkey⟩
      rw [hk] at hfound
      cases hfound
    have hsubset : key :: store.keys ⊆ keys := by
      apply List.cons_subset.mpr
      refine ⟨hkey, ?_⟩
      intro other hother
      obtain ⟨k, hkmem, rfl⟩ := List.mem_map.mp hother
      exact hkept k hkmem
    have hkeys : (key :: store.keys).Nodup := List.nodup_cons.mpr ⟨hnew, hnodup⟩
    have hless := (List.Nodup.subperm hkeys hsubset).length_le
    rw [List.length_cons, Store.keys, List.length_map] at hless
    have hfree : ¬ (store.bound ≠ 0 ∧ store.bound ≤ store.size) := by
      rw [size]
      omega
    rw [decide_eq_false hfree]
    rfl

end Keys

theorem nodup_erase (hnodup : store.keys.Nodup) (key : String) : (store.erase key).keys.Nodup :=
  hnodup.sublist (List.filter_sublist.map _)

theorem nodup_push (hnodup : store.keys.Nodup) (hnone : store.find? k.key = none) :
    (store.push k).keys.Nodup := by
  rw [keys, push, List.map_append, List.map_singleton, ← List.concat_eq_append]
  apply List.Nodup.concat _ hnodup
  intro hmem
  obtain ⟨other, ho, hkey⟩ := List.mem_map.mp hmem
  have hfree := List.find?_eq_none.mp hnone other ho
  exact hfree (decide_eq_true hkey)

theorem kept_makeRoom_sublist (store : Store) : store.makeRoom.kept.Sublist store.kept := by
  unfold makeRoom
  split
  · exact List.drop_sublist 1 store.kept
  · exact List.Sublist.refl store.kept

theorem nodup_onStore (hnodup : store.keys.Nodup) (access : Access) :
    (access.onStore store).keys.Nodup := by
  cases access with
  | stored k =>
    rw [Access.onStore, set]
    cases hk : store.find? k.key with
    | none =>
      have hroom := store.kept_makeRoom_sublist
      apply nodup_push (hnodup.sublist (hroom.map _))
      apply List.find?_eq_none.mpr
      intro other ho
      exact List.find?_eq_none.mp hk other (hroom.subset ho)
    | some old =>
      apply nodup_push (nodup_erase hnodup k.key)
      rw [find?_erase, if_pos rfl]
  | asked key fingerprint now =>
    rw [Access.onStore, get]
    cases hk : store.find? key with
    | none => exact hnodup
    | some k =>
      dsimp only
      split
      · exact nodup_erase hnodup key
      · apply nodup_push (nodup_erase hnodup key)
        rw [find?_erase, if_pos (mem_of_find? hk).2]
  | swept now => exact hnodup.sublist (List.filter_sublist.map _)

end Store

structure Mirrors (store : Store) (table : Table) : Prop where
  nodup : store.keys.Nodup
  find?_eq : ∀ key, store.find? key = table key

/-- An access does the same to the kept texts and to the map, if there is room for what it stores
and everything is dated. -/
theorem Mirrors.access {store : Store} {table : Table} {clock : Nat} (h : Mirrors store table)
    (hdated : ∀ key k, table key = some k → IsDated clock k) {access : Access}
    (hroom : ∀ k, access.stored? = some k → store.hasRoom k.key = true) :
    Mirrors (access.onStore store) (access.onTable store.lifetime table) := by
  have hfilter : ∀ now key, (table key).filter (!store.isExpired now ·) =
      (table key).filter (!isAged store.lifetime now ·) := by
    intro now key
    cases hk : table key with
    | none => rfl
    | some k => rw [Option.filter_some, Option.filter_some, Store.isExpired_eq (hdated key k hk)]
  refine ⟨Store.nodup_onStore h.nodup access, ?_⟩
  intro key
  cases access with
  | stored k =>
    rw [Access.onStore, Store.find?_set (hroom k rfl), Access.onTable, Function.update_apply,
      h.find?_eq]
  | asked asked fingerprint now =>
    rw [Access.onStore, Store.find?_get, Access.onTable, Function.update_apply, h.find?_eq,
      h.find?_eq, hfilter]
  | swept now =>
    rw [Access.onStore, Store.find?_sweep h.nodup, Access.onTable, h.find?_eq, hfilter]

namespace Clocked

variable {ι : Type}

structure Tracks (lifetime : Nat) (s : Clocked ι) (accesses : List Access) : Prop where
  pos : 0 < s.clock
  mirrors : Mirrors s.memo.store (tableOf lifetime accesses)
  recalls : Recalls lifetime s.clock accesses

theorem Tracks.dated {lifetime : Nat} {s : Clocked ι} {accesses : List Access}
    (h : Tracks lifetime s accesses) {key : String} {k : Kept}
    (hk : tableOf lifetime accesses key = some k) : IsDated s.clock k :=
  h.recalls.dated k (h.recalls.mem_stored hk).1

theorem Tracks.step {lifetime : Nat} {s : Clocked ι} {accesses : List Access}
    (h : Tracks lifetime s accesses) (hlifetime : s.memo.store.lifetime = lifetime) {act : Act ι}
    (hroom : ∀ k ∈ stored (accesses ++ (s.access? act).toList),
      s.memo.store.hasRoom k.key = true) :
    Tracks lifetime (s.step act) (accesses ++ (s.access? act).toList) := by
  rcases step_cases s act with ⟨access, haccess, hnow, hstore, hclock⟩ | ⟨hnone, hstore, hclock⟩
  · rw [haccess, Option.toList_some] at hroom ⊢
    have hstored : ∀ k, access.stored? = some k → s.memo.store.hasRoom k.key = true := by
      intro k hk
      apply hroom
      rw [stored_concat, hk]
      exact List.mem_append_right _ (List.mem_singleton_self k)
    -- There is room for the text that is stored, so no other one has to go.
    have hmirrors := h.mirrors.access (fun key k hk => h.dated hk) hstored
    rw [hlifetime, ← tableOf_concat] at hmirrors
    refine ⟨?_, ?_, ?_⟩
    · rw [hclock]
      exact h.pos
    · rw [hstore]
      exact hmirrors
    · rw [hclock]
      exact h.recalls.access h.pos hnow
  · rw [hnone, Option.toList_none, List.append_nil]
    refine ⟨Nat.lt_of_lt_of_le h.pos hclock, ?_, h.recalls.pass hclock⟩
    rw [hstore]
    exact h.mirrors

theorem tracks_run {lifetime bound start : Nat} (hstart : 0 < start) {keys : List String}
    (hlength : keys.length ≤ bound) {acts : List (Act ι)}
    (hkeys : ∀ k ∈ stored ((opened ι lifetime bound start).accesses acts), k.key ∈ keys) :
    Tracks lifetime ((opened ι lifetime bound start).run acts)
      ((opened ι lifetime bound start).accesses acts) := by
  -- From the end: the keys of a run are those of a longer one, so there is room all along.
  induction acts using List.reverseRecOn with
  | nil => exact ⟨hstart, ⟨List.nodup_nil, fun key => rfl⟩, .opened⟩
  | append_singleton acts act ih =>
    obtain ⟨hlifetime, hlimit⟩ := limits_run (ι := ι) lifetime bound start acts
    rw [accesses_concat] at hkeys ⊢
    rw [run_concat]
    have hbefore := ih fun k hk => hkeys k (mem_stored_append hk _)
    apply hbefore.step hlifetime
    intro k hk
    apply Store.hasRoom_of_keys hbefore.mirrors.nodup (hlimit.symm ▸ hlength) _ (hkeys k hk)
    intro other ho
    have hfound := (Store.find?_eq_some_iff hbefore.mirrors.nodup).mpr ⟨ho, rfl⟩
    rw [hbefore.mirrors.find?_eq] at hfound
    exact hkeys other (mem_stored_append (hbefore.recalls.mem_stored hfound).1 _)

namespace Tracks

variable {lifetime : Nat} {s : Clocked ι} {accesses : List Access}

theorem isExpired_eq (h : Tracks lifetime s accesses)
    (hlifetime : s.memo.store.lifetime = lifetime) {key : String} {k : Kept}
    (hk : tableOf lifetime accesses key = some k) (now : Number) :
    s.memo.store.isExpired now k = isAged lifetime now k := by
  rw [Store.isExpired_eq (h.dated hk), hlifetime]

theorem mem_agedKeys_iff (h : Tracks lifetime s accesses) {now : Number} {key : String} :
    key ∈ agedKeys lifetime now accesses ↔
      ∃ k, tableOf lifetime accesses key = some k ∧ isAged lifetime now k = true := by
  rw [agedKeys, List.mem_filter, Option.any_eq_true]
  constructor
  · exact And.right
  · rintro ⟨k, hk, haged⟩
    refine ⟨?_, k, hk, haged⟩
    obtain ⟨hmem, rfl⟩ := h.recalls.mem_stored hk
    exact List.mem_dedup.mpr (List.mem_map_of_mem hmem)

theorem get_iff (h : Tracks lifetime s accesses) (hlifetime : s.memo.store.lifetime = lifetime)
    (key fingerprint text : String) :
    (s.memo.store.get s.now key (some fingerprint)).2 = some text ↔
      ∃ k, latest key accesses = some k ∧ k.text = text ∧ k.fingerprint = some fingerprint ∧
        isAged lifetime s.now k = false := by
  rw [Store.get_eq_some_iff]
  constructor
  · rintro ⟨k, hk, hage, hversion, htext⟩
    rw [h.mirrors.find?_eq] at hk
    rw [h.isExpired_eq hlifetime hk] at hage
    exact ⟨k, h.recalls.latest_of_table key k hk, htext, hversion, hage⟩
  · rintro ⟨k, hk, htext, hversion, hage⟩
    have htable := (h.recalls.table_of_latest key k hk).resolve_right (ne_true_of_eq_false hage)
    refine ⟨k, ?_, ?_, hversion, htext⟩
    · rw [h.mirrors.find?_eq]
      exact htable
    · rw [h.isExpired_eq hlifetime htable]
      exact hage

theorem sweptCount_eq (h : Tracks lifetime s accesses)
    (hlifetime : s.memo.store.lifetime = lifetime) (now : Number) :
    s.memo.store.sweptCount now = (agedKeys lifetime now accesses).length := by
  let expired := s.memo.store.kept.filter (s.memo.store.isExpired now ·)
  have hcount : s.memo.store.sweptCount now = expired.length := by
    have hsplit := s.memo.store.kept.length_eq_length_filter_add (s.memo.store.isExpired now ·)
    rw [Store.sweptCount, Store.size, Store.size, Store.sweep]
    dsimp only [expired]
    omega
  have hnodup : (expired.map (·.key)).Nodup :=
    h.mirrors.nodup.sublist (List.filter_sublist.map _)
  have haged : (agedKeys lifetime now accesses).Nodup := (List.nodup_dedup _).filter _
  -- The keys of the two are the same, and neither has one twice.
  have hperm : (expired.map (·.key)).Perm (agedKeys lifetime now accesses) := by
    apply (List.perm_ext_iff_of_nodup hnodup haged).mpr
    intro key
    rw [h.mem_agedKeys_iff, List.mem_map]
    constructor
    · rintro ⟨k, hk, rfl⟩
      obtain ⟨hmem, hage⟩ := List.mem_filter.mp hk
      have hfound := (Store.find?_eq_some_iff h.mirrors.nodup).mpr ⟨hmem, rfl⟩
      rw [h.mirrors.find?_eq] at hfound
      rw [h.isExpired_eq hlifetime hfound] at hage
      exact ⟨k, hfound, hage⟩
    · rintro ⟨k, hk, hage⟩
      have hfound : s.memo.store.find? key = some k := (h.mirrors.find?_eq key).trans hk
      obtain ⟨hmem, hkey⟩ := Store.mem_of_find? hfound
      rw [← h.isExpired_eq hlifetime hk] at hage
      exact ⟨k, List.mem_filter.mpr ⟨hmem, hage⟩, hkey⟩
  rw [hcount, ← hperm.length_eq, List.length_map]

theorem find?_sweep (h : Tracks lifetime s accesses)
    (hlifetime : s.memo.store.lifetime = lifetime) (now : Number) (key : String) :
    (s.memo.store.sweep now).find? key =
      if key ∈ agedKeys lifetime now accesses then none else s.memo.store.find? key := by
  rw [Store.find?_sweep h.mirrors.nodup, h.mirrors.find?_eq]
  cases hk : tableOf lifetime accesses key with
  | none => rw [ite_self, Option.filter_none]
  | some k =>
    have hmem : key ∈ agedKeys lifetime now accesses ↔ isAged lifetime now k = true := by
      rw [h.mem_agedKeys_iff, hk]
      simp
    rw [Option.filter_some, h.isExpired_eq hlifetime hk]
    by_cases haged : isAged lifetime now k = true
    · rw [if_pos (hmem.mpr haged), haged]
      rfl
    · rw [if_neg (mt hmem.mp haged), eq_false_of_ne_true haged]
      rfl

/-- A text that a sweep removes would not have been found later either. -/
theorem get_sweep (h : Tracks lifetime s accesses) (hlifetime : s.memo.store.lifetime = lifetime)
    {later : Nat} (hle : s.clock ≤ later) (key : String) (fingerprint : Option String) :
    ((s.memo.store.sweep s.now).get (.finite later) key fingerprint).2 =
      (s.memo.store.get (.finite later) key fingerprint).2 := by
  apply Option.ext
  intro text
  rw [Store.get_eq_some_iff, Store.get_eq_some_iff]
  apply exists_congr
  intro k
  rw [Store.find?_sweep h.mirrors.nodup, Option.filter_eq_some_iff]
  constructor
  · rintro ⟨⟨hk, -⟩, hlater⟩
    exact ⟨hk, hlater⟩
  · rintro ⟨hk, hage, hrest⟩
    refine ⟨⟨hk, ?_⟩, hage, hrest⟩
    rw [h.mirrors.find?_eq] at hk
    rw [h.isExpired_eq hlifetime hk] at hage ⊢
    have hnow : isAged lifetime s.now k ≠ true := by
      intro haged
      have hstill := isAged_mono (h.dated hk) hle haged
      rw [hage] at hstill
      cases hstill
    rw [eq_false_of_ne_true hnow]
    rfl

end Tracks

/-- In every run there are never more texts than the bound allows; and if no more keys are used
than that, the kept texts are those that were stored last and are not too old. -/
theorem lastWrite_run (lifetime : Nat) {bound start : Nat} (hbound : 1 ≤ bound) (hstart : 0 < start)
    (acts : List (Act ι)) :
    ((opened ι lifetime bound start).run acts).memo.store.size ≤ bound ∧
      ((storedKeys ((opened ι lifetime bound start).accesses acts)).length ≤ bound →
        IsLastWrite lifetime ((opened ι lifetime bound start).run acts).clock
          ((opened ι lifetime bound start).accesses acts)
          ((opened ι lifetime bound start).run acts).memo.store) := by
  refine ⟨size_run_le hbound lifetime start acts, ?_⟩
  intro hlength
  have hlifetime := (limits_run (ι := ι) lifetime bound start acts).1
  have hkeys : ∀ k ∈ stored ((opened ι lifetime bound start).accesses acts),
      k.key ∈ storedKeys ((opened ι lifetime bound start).accesses acts) := by
    intro k hk
    exact List.mem_dedup.mpr (List.mem_map_of_mem hk)
  have htracks := tracks_run hstart hlength hkeys
  exact {
    find?_eq := htracks.mirrors.find?_eq
    get_iff := htracks.get_iff hlifetime
    sweptCount_eq := htracks.sweptCount_eq hlifetime _
    find?_sweep := htracks.find?_sweep hlifetime _
    get_sweep := fun later hle => htracks.get_sweep hlifetime hle
  }

def milliseconds (n : Nat) : Nat := n * Number.one

/-- A text is stored, another one is computed, the first one gets too old, and the second one is
stored anew. -/
def ageing : List (Act Nat) :=
  [.set "a" "A" "v1", .pass (milliseconds 100), .get "a" "v1", .call 0 "b" "v1", .keep "v1\nb" "B",
    .close "v1\nb", .pass (milliseconds 1), .set "b" "C" "v2"]

def aged : Clocked Nat := (opened Nat 100 2 (milliseconds 1000)).run ageing

theorem lastWrite_run_ageing :
    1 ≤ 2 ∧ 0 < milliseconds 1000 ∧
      (storedKeys ((opened Nat 100 2 (milliseconds 1000)).accesses ageing)).length ≤ 2 ∧
      aged.memo.store.sweptCount (.finite (milliseconds 1101)) = 1 ∧
      (aged.memo.store.get (.finite (milliseconds 1101)) "b" (some "v2")).2 = some "C" := by
  have hbound : 1 ≤ 2 := by decide
  have hstart : 0 < milliseconds 1000 := by decide +kernel
  have hkeys : (storedKeys ((opened Nat 100 2 (milliseconds 1000)).accesses ageing)).length ≤ 2 := by
    decide +kernel
  have hrun : IsLastWrite 100 aged.clock _ aged.memo.store :=
    (lastWrite_run 100 hbound hstart ageing).2 hkeys
  have hclock : aged.clock = milliseconds 1101 := by decide +kernel
  have haged : agedKeys 100 (.finite (milliseconds 1101))
      ((opened Nat 100 2 (milliseconds 1000)).accesses ageing) = ["a"] := by
    decide +kernel
  have hlatest : latest "b" ((opened Nat 100 2 (milliseconds 1000)).accesses ageing) =
      some ⟨"b", "C", some "v2", .finite (milliseconds 1101)⟩ := by
    decide +kernel
  have hswept := hrun.sweptCount_eq
  have hget := (hrun.get_iff "b" "v2" "C").mpr ⟨_, hlatest, rfl, rfl, by decide +kernel⟩
  rw [hclock] at hswept hget
  rw [haged] at hswept
  exact ⟨hbound, hstart, hkeys, hswept, hget⟩

end Clocked

end DomainRules.Memo
