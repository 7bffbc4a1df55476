import DomainRules.Expansion

namespace DomainRules

namespace Reading

variable {α β γ : Type}

@[simp] theorem steps_map (f : α → β) (work : Reading α) : (work.map f).steps = work.steps := rfl

@[simp] theorem result_map (f : α → β) (work : Reading α) :
    (work.map f).result = work.result.map f := rfl

@[simp] theorem steps_after (steps : List Step) (work : Reading α) :
    (work.after steps).steps = steps ++ work.steps := rfl

@[simp] theorem result_after (steps : List Step) (work : Reading α) :
    (work.after steps).result = work.result := rfl

@[simp] theorem steps_before (steps : List Step) (work : Reading α) :
    (work.before steps).steps = work.steps ++ steps := rfl

@[simp] theorem result_before (steps : List Step) (work : Reading α) :
    (work.before steps).result = work.result := rfl

@[simp] theorem map_after (f : α → β) (steps : List Step) (work : Reading α) :
    (work.after steps).map f = (work.map f).after steps := rfl

@[simp] theorem map_before (f : α → β) (steps : List Step) (work : Reading α) :
    (work.before steps).map f = (work.map f).before steps := rfl

theorem after_nil (work : Reading α) : work.after [] = work := rfl

@[simp] theorem map_id (work : Reading α) : work.map (fun a => a) = work := by
  obtain ⟨steps, result⟩ := work
  cases result <;> rfl

@[simp] theorem map_map (f : α → β) (g : β → γ) (work : Reading α) :
    (work.map f).map g = work.map (g ∘ f) := by
  obtain ⟨steps, result⟩ := work
  cases result <;> rfl

theorem map_bind (f : β → γ) (work : Reading α) (next : α → Reading β) :
    (work.bind next).map f = work.bind fun a => (next a).map f := by
  obtain ⟨steps, result⟩ := work
  cases result <;> rfl

theorem bind_map (f : α → β) (work : Reading α) (next : β → Reading γ) :
    (work.map f).bind next = work.bind fun a => next (f a) := by
  obtain ⟨steps, result⟩ := work
  cases result <;> rfl

theorem result_map_eq_ok {f : α → β} {work : Reading α} {b : β} :
    (work.map f).result = .ok b ↔ ∃ a, work.result = .ok a ∧ f a = b := by
  obtain ⟨steps, result⟩ := work
  cases result <;> simp [map, Except.map]

theorem result_map_eq_error {f : α → β} {work : Reading α} {failure : Failure} :
    (work.map f).result = .error failure ↔ work.result = .error failure := by
  obtain ⟨steps, result⟩ := work
  cases result <;> simp [map, Except.map]

theorem result_bind_eq_ok {work : Reading α} {next : α → Reading β} {b : β} :
    (work.bind next).result = .ok b ↔
      ∃ a, work.result = .ok a ∧ (next a).result = .ok b := by
  obtain ⟨steps, result⟩ := work
  cases result <;> simp [bind]

theorem result_bind_eq_error {work : Reading α} {next : α → Reading β} {failure : Failure} :
    (work.bind next).result = .error failure ↔
      work.result = .error failure ∨
        ∃ a, work.result = .ok a ∧ (next a).result = .error failure := by
  obtain ⟨steps, result⟩ := work
  cases result <;> simp [bind]

theorem length_steps_bind_le (work : Reading α) (next : α → Reading β) {n : Nat}
    (h : ∀ a, (next a).steps.length ≤ n) :
    (work.bind next).steps.length ≤ work.steps.length + n := by
  obtain ⟨steps, result⟩ := work
  cases result with
  | error failure => simp [bind]
  | ok a => simp [bind, h a]

end Reading

section Equations

-- Makes the equations of the recursion once, before the lemmas that rewrite with them.
attribute [local simp] expand

variable (archive : Archive) (filter : String) (path : List String)

@[simp] theorem expand_nil : expand archive filter path [] = .done [] := by
  rw [expand]

@[simp] theorem expand_nothing (lines : List Line) :
    expand archive filter path (.nothing :: lines) = expand archive filter path lines := by
  rw [expand]

@[simp] theorem expand_comment (text : String) (lines : List Line) :
    expand archive filter path (.comment text :: lines) =
      (expand archive filter path lines).map (.comment text :: ·) := by
  rw [expand]

theorem expand_rule_of_selected {rule : Rule} (h : rule.isSelectedBy filter = true)
    (lines : List Line) :
    expand archive filter path (.rule rule :: lines) =
      (expand archive filter path lines).map (.rule rule :: ·) := by
  rw [expand, if_pos h]

theorem expand_rule_of_not_selected {rule : Rule} (h : rule.isSelectedBy filter = false)
    (lines : List Line) :
    expand archive filter path (.rule rule :: lines) = expand archive filter path lines := by
  rw [expand, if_neg (by rw [h]; decide)]

theorem expand_inclusion_empty (line : String) (lines : List Line) :
    expand archive filter path (.inclusion "" line :: lines) =
      (expand archive filter path lines).after [.turn] := by
  rw [expand, if_pos rfl]

variable {path}

theorem expand_inclusion_cyclic {name : String} (hn : name ≠ "") (hp : path.contains name = true)
    (line : String) (lines : List Line) :
    expand archive filter path (.inclusion name line :: lines) =
      { steps := [.turn], result := .error (.cyclicInclude (path ++ [name])) } := by
  rw [expand, if_neg hn, dif_pos hp]

variable {archive}

theorem expand_inclusion_unread {name : String} (hn : name ≠ "")
    (hp : ¬ path.contains name = true) {failure : Failure}
    (hr : archive.read name = .error failure) (line : String) (lines : List Line) :
    expand archive filter path (.inclusion name line :: lines) =
      { steps := [.read name, .turn, .turn, .turn]
        result := .error (failure.whenIncluded path name) } := by
  rw [expand, if_neg hn, dif_neg hp]
  split
  · rename_i other ho
    rw [hr] at ho
    cases ho
    rfl
  · rename_i text ht
    rw [hr] at ht
    cases ht

theorem expand_inclusion_read {name text : String} (hn : name ≠ "")
    (hp : ¬ path.contains name = true) (hr : archive.read name = .ok text) (line : String)
    (lines : List Line) :
    expand archive filter path (.inclusion name line :: lines) =
      (((expand archive filter (path ++ [name]) (Line.ofText text)).after
          [.read name, .turn, .turn]).before [.turn, .turn]).bind fun items =>
        (expand archive filter path lines).map (includedItems line items ++ ·) := by
  rw [expand, if_neg hn, dif_neg hp]
  split
  · rename_i failure hf
    rw [hr] at hf
    cases hf
  · rename_i other ho
    rw [hr] at ho
    cases ho
    rfl

theorem expandMember_of_unread {name : String} {failure : Failure}
    (hr : archive.read name = .error failure) :
    expandMember archive filter name =
      { steps := [.read name, .turn, .turn], result := .error failure } := by
  simp only [expandMember, hr]

/-- A member is read, then its lines are expanded, and a few turns later the items are at hand. -/
theorem expandMember_of_read {name text : String} (hr : archive.read name = .ok text) :
    ∃ rest : List Step, rest.length ≤ 3 ∧
      expandMember archive filter name =
        ((expand archive filter [name] (Line.ofText text)).after [.read name, .turn]).before
          rest := by
  simp only [expandMember, hr]
  split
  · exact ⟨[.turn, .turn, .turn], by decide, rfl⟩
  · exact ⟨[.turn, .turn], by decide, rfl⟩

variable {filter}

theorem result_expandMember_of_read {name text : String} (hr : archive.read name = .ok text) :
    (expandMember archive filter name).result =
      (expand archive filter [name] (Line.ofText text)).result := by
  obtain ⟨rest, -, he⟩ := expandMember_of_read filter hr
  rw [he]
  rfl

theorem result_expand_inclusion_eq_ok {name : String} (hn : name ≠ "") {line : String}
    {lines : List Line} {items : List Item} :
    (expand archive filter path (.inclusion name line :: lines)).result = .ok items ↔
      name ∉ path ∧ ∃ text inner rest, archive.read name = .ok text ∧
        (expand archive filter (path ++ [name]) (Line.ofText text)).result = .ok inner ∧
        (expand archive filter path lines).result = .ok rest ∧
        items = includedItems line inner ++ rest := by
  constructor
  · intro h
    by_cases hp : path.contains name = true
    · rw [expand_inclusion_cyclic archive filter hn hp] at h
      cases h
    · cases hr : archive.read name with
      | error failure =>
        rw [expand_inclusion_unread filter hn hp hr] at h
        cases h
      | ok text =>
        rw [expand_inclusion_read filter hn hp hr] at h
        obtain ⟨inner, hinner, hmap⟩ := Reading.result_bind_eq_ok.mp h
        obtain ⟨rest, hrest, hitems⟩ := Reading.result_map_eq_ok.mp hmap
        exact ⟨by simpa using hp, text, inner, rest, rfl, hinner, hrest, hitems.symm⟩
  · rintro ⟨hp, text, inner, rest, hr, hinner, hrest, rfl⟩
    rw [expand_inclusion_read filter hn (by simpa using hp) hr]
    apply Reading.result_bind_eq_ok.mpr
    exact ⟨inner, hinner, Reading.result_map_eq_ok.mpr ⟨rest, hrest, rfl⟩⟩

end Equations

def Archive.SameLists (a b : Archive) : Prop := ∀ name : String, a.read name = b.read name

theorem Archive.SameLists.refl (a : Archive) : a.SameLists a := fun _ => rfl

theorem expand_congr {a b : Archive} (hab : a.SameLists b) (filter : String)
    (path : List String) (lines : List Line) :
    expand a filter path lines = expand b filter path lines := by
  fun_induction expand a filter path lines with
  | case1 path => rw [expand_nil]
  | case2 path lines ih => rw [expand_nothing, ih]
  | case3 path text lines ih => rw [expand_comment, ih]
  | case4 path rule lines hs ih => rw [expand_rule_of_selected b filter path hs, ih]
  | case5 path rule lines hs ih =>
    rw [expand_rule_of_not_selected b filter path (eq_false_of_ne_true hs), ih]
  | case6 path line lines ih => rw [expand_inclusion_empty, ih]
  | case7 path name line lines hn hp => rw [expand_inclusion_cyclic b filter hn hp]
  | case8 path name line lines hn hp failure hr =>
    rw [expand_inclusion_unread filter hn hp ((hab name).symm.trans hr)]
  | case9 path name line lines hn hp text hr ihsub ihrest =>
    rw [expand_inclusion_read filter hn hp ((hab name).symm.trans hr), ihsub, ihrest]

theorem expandMember_congr {a b : Archive} (hab : a.SameLists b) (filter name : String) :
    expandMember a filter name = expandMember b filter name := by
  simp only [expandMember, hab name, expand_congr hab]

end DomainRules
