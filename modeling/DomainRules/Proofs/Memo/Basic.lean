import DomainRules.Memo

namespace DomainRules.Memo

namespace Store

variable {store : Store} {now : Number} {key : String} {fingerprint : Option String}

theorem mem_of_find? {k : Kept} (h : store.find? key = some k) :
    k ∈ store.kept ∧ k.key = key := by
  refine ⟨List.mem_of_find?_eq_some h, ?_⟩
  simpa using List.find?_some h

theorem mem_kept_of_mem_erase {k : Kept} (h : k ∈ (store.erase key).kept) : k ∈ store.kept :=
  (List.mem_filter.mp h).1

theorem mem_kept_of_mem_makeRoom {k : Kept} (h : k ∈ store.makeRoom.kept) : k ∈ store.kept := by
  unfold makeRoom at h
  split at h
  · exact List.mem_of_mem_drop h
  · exact h

theorem mem_kept_of_mem_get {k : Kept} (h : k ∈ (store.get now key fingerprint).1.kept) :
    k ∈ store.kept := by
  unfold get at h
  split at h
  · exact h
  · rename_i found hfound
    split at h
    · exact mem_kept_of_mem_erase h
    · rcases List.mem_append.mp h with h | h
      · exact mem_kept_of_mem_erase h
      · rw [List.mem_singleton.mp h]
        exact (mem_of_find? hfound).1

theorem get_eq_some_iff {text : String} :
    (store.get now key fingerprint).2 = some text ↔
      ∃ k, store.find? key = some k ∧ store.isExpired now k = false ∧ k.fingerprint = fingerprint ∧
        k.text = text := by
  unfold get
  cases store.find? key with
  | none => simp
  | some k =>
    by_cases hage : store.isExpired now k = true
    · simp [hage]
    · simp [hage]

theorem exists_of_get_eq_some {text : String} (h : (store.get now key fingerprint).2 = some text) :
    ∃ k ∈ store.kept, k.key = key ∧ k.fingerprint = fingerprint ∧ k.text = text ∧
      store.isExpired now k = false := by
  obtain ⟨k, hk, hage, hversion, htext⟩ := get_eq_some_iff.mp h
  obtain ⟨hmem, hkey⟩ := mem_of_find? hk
  exact ⟨k, hmem, hkey, hversion, htext, hage⟩

theorem mem_kept_of_mem_set {text : String} {k : Kept}
    (h : k ∈ (store.set now key text fingerprint).kept) :
    k ∈ store.kept ∨ k = { key, text, fingerprint, since := now } := by
  unfold set at h
  rcases List.mem_append.mp h with h | h
  · refine Or.inl ?_
    split at h
    · exact mem_kept_of_mem_erase h
    · exact mem_kept_of_mem_makeRoom h
  · exact Or.inr (List.mem_singleton.mp h)

theorem mem_kept_of_mem_sweep {k : Kept} (h : k ∈ (store.sweep now).kept) : k ∈ store.kept :=
  (List.mem_filter.mp h).1

end Store

variable {ι : Type}

theorem mem_join {caller : ι} {name : String} {running : List (Computation ι)}
    {c : Computation ι} (h : c ∈ join caller name running) :
    c ∈ running ∨ ∃ d ∈ running, d.identity = name ∧
      c = { d with joined := d.joined ++ [caller] } := by
  induction running with
  | nil => cases h
  | cons d running ih =>
    rw [join] at h
    split at h
    · rename_i hd
      rcases List.mem_cons.mp h with h | h
      · exact Or.inr ⟨d, List.mem_cons_self, hd, h⟩
      · exact Or.inl (List.mem_cons_of_mem d h)
    · rcases List.mem_cons.mp h with h | h
      · exact Or.inl (h ▸ List.mem_cons_self)
      · rcases ih h with h | ⟨e, he, hname, hc⟩
        · exact Or.inl (List.mem_cons_of_mem d h)
        · exact Or.inr ⟨e, List.mem_cons_of_mem d he, hname, hc⟩

theorem store_call (memo : Memo ι) (now : Number) (caller : ι) (key : String)
    (fingerprint : Option String) :
    (memo.call now caller key fingerprint).1.store = (memo.store.get now key fingerprint).1 := by
  unfold call
  split
  · rename_i store text h
    rw [h]
  · rename_i store h
    dsimp only
    split <;> rw [h]

/-- A call finds a kept text, joins the computation of its name, or starts one of a new name. -/
theorem call_cases (memo : Memo ι) (now : Number) (caller : ι) (key : String)
    (fingerprint : Option String) :
    (∃ text, (memo.store.get now key fingerprint).2 = some text ∧
      (memo.call now caller key fingerprint).2 = .kept text ∧
      (memo.call now caller key fingerprint).1.running = memo.running) ∨
    ((memo.call now caller key fingerprint).2 = .joined ∧
      (∃ c ∈ memo.running, c.identity = identity key fingerprint) ∧
      (memo.call now caller key fingerprint).1.running =
        join caller (identity key fingerprint) memo.running) ∨
    ((memo.call now caller key fingerprint).2 = .started ∧
      (∀ c ∈ memo.running, c.identity ≠ identity key fingerprint) ∧
      (memo.call now caller key fingerprint).1.running =
        memo.running ++ [{ key, fingerprint, owner := caller, joined := [] }]) := by
  unfold call
  split
  · rename_i store text h
    exact Or.inl ⟨text, by rw [h], rfl, rfl⟩
  · dsimp only
    split
    · rename_i hany
      obtain ⟨c, hc, hname⟩ := List.any_eq_true.mp hany
      exact Or.inr (Or.inl ⟨rfl, ⟨c, hc, of_decide_eq_true hname⟩, rfl⟩)
    · rename_i hany
      refine Or.inr (Or.inr ⟨rfl, ?_, rfl⟩)
      intro c hc hname
      exact hany (List.any_eq_true.mpr ⟨c, hc, decide_eq_true hname⟩)

theorem answer_of_get {memo : Memo ι} {now : Number} {caller : ι} {key text : String}
    {fingerprint : Option String}
    (h : (memo.store.get now key fingerprint).2 = some text) :
    (memo.call now caller key fingerprint).2 = .kept text := by
  unfold call
  rcases hstore : memo.store.get now key fingerprint with ⟨store, text?⟩
  rw [hstore] at h
  dsimp only at h
  rw [h]

theorem get_of_answer_kept {memo : Memo ι} {now : Number} {caller : ι} {key text : String}
    {fingerprint : Option String}
    (h : (memo.call now caller key fingerprint).2 = .kept text) :
    (memo.store.get now key fingerprint).2 = some text := by
  rcases call_cases memo now caller key fingerprint with
    ⟨other, hget, hanswer, _⟩ | ⟨hanswer, _⟩ | ⟨hanswer, _⟩
  · rw [hanswer] at h
    rw [hget, Answer.kept.inj h]
  · rw [hanswer] at h
    cases h
  · rw [hanswer] at h
    cases h

end DomainRules.Memo
