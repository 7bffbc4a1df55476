import DomainRules.Proofs.Expansion.Basic

namespace DomainRules

@[simp] theorem rulesOf_append (items more : List Item) :
    rulesOf (items ++ more) = rulesOf items ++ rulesOf more :=
  List.filterMap_append

/-- An included list that has no rules is dropped with its comments, and no rule is lost by that. -/
@[simp] theorem rulesOf_includedItems (line : String) (items : List Item) :
    rulesOf (includedItems line items) = rulesOf items := by
  unfold includedItems
  split
  · rename_i hempty
    exact (List.isEmpty_iff.mp hempty).symm
  · rfl

theorem Rule.isSelectedBy_empty (rule : Rule) : rule.isSelectedBy "" = true := rfl

def expandRules (archive : Archive) (filter : String) (path : List String) (lines : List Line) :
    Reading (List Rule) :=
  (expand archive filter path lines).map rulesOf

section Rules

variable (archive : Archive) (filter : String) (path : List String)

theorem expandRules_nothing (lines : List Line) :
    expandRules archive filter path (.nothing :: lines) =
      expandRules archive filter path lines := by
  rw [expandRules, expand_nothing, expandRules]

theorem expandRules_comment (text : String) (lines : List Line) :
    expandRules archive filter path (.comment text :: lines) =
      expandRules archive filter path lines := by
  rw [expandRules, expand_comment, Reading.map_map]
  rfl

theorem expandRules_rule (rule : Rule) (lines : List Line) :
    expandRules archive filter path (.rule rule :: lines) =
      (expandRules archive filter path lines).map ([rule].filter (·.isSelectedBy filter) ++ ·) := by
  cases hs : rule.isSelectedBy filter with
  | true =>
    rw [expandRules, expand_rule_of_selected archive filter path hs, expandRules,
      Reading.map_map, Reading.map_map]
    simp only [List.filter_cons_of_pos hs]
    rfl
  | false =>
    rw [expandRules, expand_rule_of_not_selected archive filter path hs, expandRules,
      Reading.map_map, List.filter_cons_of_neg (by rw [hs]; decide)]
    rfl

variable {archive path}

theorem expandRules_inclusion {name text : String} (hn : name ≠ "")
    (hp : ¬ path.contains name = true) (hr : archive.read name = .ok text) (line : String)
    (lines : List Line) :
    expandRules archive filter path (.inclusion name line :: lines) =
      (((expandRules archive filter (path ++ [name]) (Line.ofText text)).after
          [.read name, .turn, .turn]).before [.turn, .turn]).bind fun rules =>
        (expandRules archive filter path lines).map (rules ++ ·) := by
  unfold expandRules
  rw [expand_inclusion_read filter hn hp hr, Reading.map_bind, ← Reading.map_after,
    ← Reading.map_before, Reading.bind_map]
  congr 1
  funext items
  rw [Reading.map_map, Reading.map_map]
  congr 1
  funext more
  rw [Function.comp_apply, Function.comp_apply, rulesOf_append, rulesOf_includedItems]

end Rules

theorem expandRules_eq_filter (archive : Archive) (filter : String) (path : List String)
    (lines : List Line) :
    expandRules archive filter path lines =
      (expandRules archive "" path lines).map (·.filter (·.isSelectedBy filter)) := by
  fun_induction expand archive "" path lines with
  | case1 path => simp only [expandRules, expand_nil]; rfl
  | case2 path lines ih => rw [expandRules_nothing, expandRules_nothing, ih]
  | case3 path text lines ih => rw [expandRules_comment, expandRules_comment, ih]
  | case4 path rule lines hs ih =>
    rw [expandRules_rule, expandRules_rule, ih, Reading.map_map, Reading.map_map]
    congr 1
    funext rules
    rw [List.filter_cons_of_pos (Rule.isSelectedBy_empty rule)]
    exact (List.filter_append [rule] rules).symm
  | case5 path rule lines hs ih => exact absurd (Rule.isSelectedBy_empty rule) hs
  | case6 path line lines ih =>
    simp only [expandRules, expand_inclusion_empty, Reading.map_after] at ih ⊢
    rw [ih]
  | case7 path name line lines hn hp =>
    simp only [expandRules, expand_inclusion_cyclic archive _ hn hp]
    rfl
  | case8 path name line lines hn hp failure hr =>
    simp only [expandRules, expand_inclusion_unread _ hn hp hr]
    rfl
  | case9 path name line lines hn hp text hr ihsub ihrest =>
    -- Both lists are selected from alone, and a selection from both is the two one after another.
    rw [expandRules_inclusion _ hn hp hr, expandRules_inclusion _ hn hp hr, ihsub, ihrest,
      Reading.map_bind, ← Reading.map_after, ← Reading.map_before, Reading.bind_map]
    congr 1
    funext rules
    rw [Reading.map_map, Reading.map_map]
    congr 1
    funext more
    exact (List.filter_append rules more).symm

theorem expandMember_map_rulesOf (archive : Archive) (filter name : String) :
    (expandMember archive filter name).map rulesOf =
      (expandMember archive "" name).map fun items =>
        (rulesOf items).filter (·.isSelectedBy filter) := by
  cases hr : archive.read name with
  | error failure =>
    simp only [expandMember, hr]
    rfl
  | ok text =>
    have he := expandRules_eq_filter archive filter [name] (Line.ofText text)
    have hsteps := congrArg Reading.steps he
    simp only [expandRules, Reading.steps_map] at hsteps
    simp only [expandMember, hr, hsteps, Reading.map_before, Reading.map_after]
    unfold expandRules at he
    rw [he, Reading.map_map]
    rfl

/-- Filtering commutes with the expansion of included lists: with a filter the same members are
read, the same failure comes out, and on success the rules are those that the filter selects from
the rules without one, in the same order and as often. -/
theorem expandMember_selects (archive : Archive) (filter name : String) :
    (expandMember archive filter name).reads = (expandMember archive "" name).reads ∧
      match (expandMember archive "" name).result with
      | .error failure => (expandMember archive filter name).result = .error failure
      | .ok all => ∃ items, (expandMember archive filter name).result = .ok items ∧
          rulesOf items = (rulesOf all).filter (·.isSelectedBy filter) := by
  have he := expandMember_map_rulesOf archive filter name
  have hsteps := congrArg Reading.steps he
  have hresult := congrArg Reading.result he
  rw [Reading.steps_map, Reading.steps_map] at hsteps
  rw [Reading.result_map, Reading.result_map] at hresult
  refine ⟨?_, ?_⟩
  · rw [Reading.reads, Reading.reads, hsteps]
  · cases hall : (expandMember archive "" name).result with
    | error failure =>
      cases hsome : (expandMember archive filter name).result with
      | error other =>
        rw [hall, hsome] at hresult
        exact congrArg Except.error (Except.error.inj hresult)
      | ok items =>
        rw [hall, hsome] at hresult
        cases hresult
    | ok all =>
      cases hsome : (expandMember archive filter name).result with
      | error other =>
        rw [hall, hsome] at hresult
        cases hresult
      | ok items =>
        rw [hall, hsome] at hresult
        exact ⟨items, rfl, Except.ok.inj hresult⟩

end DomainRules
