import DomainRules.Proofs.Text.Lines
import DomainRules.Proofs.Yaml.Scalar
import DomainRules.Rendering

namespace DomainRules

namespace Yaml

inductive Row where
  | key (name : String)
  | entry (value : String)
deriving DecidableEq

/-- A key that is a plain scalar of lower-case letters and low lines, without a value of its own. -/
def key? (line : List Char) : Option String :=
  match line.takeWhile (· ≠ ':'), line.dropWhile (· ≠ ':') with
  | [], _ => none
  | name, [':'] => if name.all (fun c => c.isLower || c = '_') then some (String.ofList name) else none
  | _, _ => none

def listed? : List Char → Option String
  | ' ' :: ' ' :: '-' :: ' ' :: '"' :: inside =>
    match scalar? .text inside with
    | some (value, []) => some (String.ofList value)
    | _ => none
  | _ => none

def row? (line : List Char) : Option Row :=
  ((listed? line).map .entry).or ((key? line).map .key)

/-- The entries in front of the first key, and the sequence of each key. -/
def gather? : List (List Char) → Option (List String × List (String × List String))
  | [] => some ([], [])
  | line :: lines =>
    match row? line, gather? lines with
    | some (.entry value), some (values, sets) => some (value :: values, sets)
    | some (.key name), some (values, sets) =>
      if values = [] then none else some ([], (name, values) :: sets)
    | _, _ => none

/-- The mapping that a text stands for. Every entry belongs to a key, every key has entries, and no
key occurs twice. -/
def mapping? (text : String) : Option (List (String × List String)) :=
  match gather? (Text.linesOf text.toList) with
  | some ([], sets) => if (sets.map Prod.fst).Nodup then some sets else none
  | _ => none

end Yaml

/-- The mapping that rules stand for: the values of each kind, without the kinds that do not occur. -/
def setsOf (rules : List Rule) : List (String × List String) :=
  let values (kind : Comparison) := (rules.filter (·.kind = kind)).map (·.value)
  [("domain_set", values .exact), ("domain_suffix_set", values .suffix),
    ("domain_keyword_set", values .keyword), ("domain_regex_set", values .regex)].filter (·.2 ≠ [])

namespace Rendering

open Yaml

variable {items : List Item}

theorem row?_valueLine {value : String} (h : '\n' ∉ value.toList) :
    row? (valueLine value) = some (.entry value) := by
  have hread := scalar?_flatMap_escape value.toList []
  have hentry : listed? (valueLine value) = some value := by
    rw [valueLine, quoted_of_notMem h, listed?, hread]
    dsimp only
    rw [String.ofList_toList]
  rw [row?, hentry]
  rfl

theorem row?_setName (kind : Comparison) :
    row? (kind.setName ++ [':']) = some (.key (String.ofList kind.setName)) := by
  cases kind <;> decide

theorem feed_notMem_valueLine {value : String} (h : '\n' ∉ value.toList) :
    '\n' ∉ valueLine value := by
  have hquoted := feed_notMem_quoted h valueIndent
  simp [valueLine, hquoted]

theorem gather?_valueLines {values others : List String} {lines : List (List Char)}
    {sets : List (String × List String)} (h : ∀ value ∈ values, '\n' ∉ value.toList)
    (hlines : gather? lines = some (others, sets)) :
    gather? (values.map valueLine ++ lines) = some (values ++ others, sets) := by
  induction values with
  | nil => exact hlines
  | cons value values ih =>
    obtain ⟨hvalue, hvalues⟩ := List.forall_mem_cons.mp h
    rw [List.map_cons, List.cons_append, gather?, row?_valueLine hvalue, ih hvalues]
    rfl

theorem gather?_setLines {kind : Comparison} {lines : List (List Char)}
    {sets : List (String × List String)} (h : ∀ value ∈ valuesOf kind items, '\n' ∉ value.toList)
    (hlines : gather? lines = some ([], sets)) :
    gather? (setLines kind items ++ lines) =
      some ([], [(String.ofList kind.setName, valuesOf kind items)].filter (·.2 ≠ []) ++ sets) := by
  unfold setLines
  generalize valuesOf kind items = values at h
  cases values with
  | nil => exact hlines
  | cons value values =>
    have hvalues := gather?_valueLines h hlines
    dsimp only
    rw [List.append_nil] at hvalues
    rw [List.cons_append, gather?, row?_setName, hvalues]
    rfl

theorem mem_setLines {kind : Comparison} {line : List Char} (h : line ∈ setLines kind items) :
    line = kind.setName ++ [':'] ∨ ∃ value ∈ valuesOf kind items, line = valueLine value := by
  unfold setLines at h
  split at h
  · cases h
  · rcases List.mem_cons.mp h with rfl | h
    · exact .inl rfl
    · obtain ⟨value, hv, rfl⟩ := List.mem_map.mp h
      exact .inr ⟨value, hv, rfl⟩

theorem linesOf_ofSets (h : ∀ rule ∈ rulesOf items, '\n' ∉ rule.value.toList) :
    Text.linesOf (ofSets items).toList = setOrder.flatMap fun kind => setLines kind items := by
  rw [ofSets, String.toList_ofList, Text.joinWith_eq_intercalate]
  apply Text.linesOf_intercalate
  intro line hl
  obtain ⟨kind, -, hl⟩ := List.mem_flatMap.mp hl
  rcases mem_setLines hl with rfl | ⟨value, hv, rfl⟩
  · cases kind <;> decide
  · obtain ⟨rule, hr, rfl⟩ := List.mem_map.mp hv
    exact ⟨List.cons_ne_nil _ _, feed_notMem_valueLine (h rule (List.mem_filter.mp hr).1)⟩

theorem setLines_eq_nil_iff (kind : Comparison) :
    setLines kind items = [] ↔ ∀ rule ∈ rulesOf items, rule.kind ≠ kind := by
  have hvalues : setLines kind items = [] ↔ valuesOf kind items = [] := by
    unfold setLines
    cases valuesOf kind items with
    | nil => exact iff_of_true rfl rfl
    | cons value values => exact iff_of_false (List.cons_ne_nil _ _) (List.cons_ne_nil _ _)
  rw [hvalues, valuesOf, List.map_eq_nil_iff, List.filter_eq_nil_iff]
  simp

theorem gather?_flatMap_setLines (h : ∀ rule ∈ rulesOf items, '\n' ∉ rule.value.toList)
    (kinds : List Comparison) :
    gather? (kinds.flatMap fun kind => setLines kind items) =
      some ([], (kinds.map fun kind => (String.ofList kind.setName, valuesOf kind items)).filter
        (·.2 ≠ [])) := by
  induction kinds with
  | nil => rfl
  | cons kind kinds ih =>
    have hvalues : ∀ value ∈ valuesOf kind items, '\n' ∉ value.toList := by
      intro value hv
      obtain ⟨rule, hr, rfl⟩ := List.mem_map.mp hv
      exact h rule (List.mem_filter.mp hr).1
    rw [List.flatMap_cons, gather?_setLines hvalues ih, List.map_cons, ← List.filter_append,
      List.singleton_append]

theorem map_setOrder (items : List Item) :
    (setOrder.map fun kind => (String.ofList kind.setName, valuesOf kind items)).filter (·.2 ≠ []) =
      setsOf (rulesOf items) :=
  rfl

theorem nodup_setsOf (rules : List Rule) : ((setsOf rules).map Prod.fst).Nodup := by
  have hkeys : ["domain_set", "domain_suffix_set", "domain_keyword_set", "domain_regex_set"].Nodup := by
    decide
  exact hkeys.sublist (List.filter_sublist.map Prod.fst)

theorem ofSets_eq_empty_iff (h : ∀ rule ∈ rulesOf items, '\n' ∉ rule.value.toList) :
    ofSets items = "" ↔ rulesOf items = [] := by
  have hlines : ofSets items = "" ↔ setOrder.flatMap (fun kind => setLines kind items) = [] := by
    rw [← linesOf_ofSets h, ← String.toList_eq_nil_iff]
    exact Text.linesOf_eq_nil_iff.symm
  have horder : ∀ kind : Comparison, kind ∈ setOrder := by
    intro kind
    cases kind <;> decide
  rw [hlines, List.flatMap_eq_nil_iff]
  constructor
  · intro hnone
    apply List.eq_nil_iff_forall_not_mem.mpr
    intro rule hr
    exact (setLines_eq_nil_iff rule.kind).mp (hnone rule.kind (horder rule.kind)) rule hr rfl
  · intro hnone kind _
    rw [setLines_eq_nil_iff, hnone]
    rintro rule ⟨⟩

end Rendering

/-- The text of the set dialect stands for the values of the rules of each kind, in the order of the
kinds and of the rules, and it is empty if and only if there is no rule. -/
theorem mapping?_render_egern {items : List Item}
    (h : ∀ rule ∈ rulesOf items, '\n' ∉ rule.value.toList) :
    Yaml.mapping? (render .egern items) = some (setsOf (rulesOf items)) ∧
      (render .egern items = "" ↔ rulesOf items = []) := by
  refine ⟨?_, Rendering.ofSets_eq_empty_iff h⟩
  have hgather := Rendering.gather?_flatMap_setLines h setOrder
  rw [Rendering.map_setOrder] at hgather
  rw [Yaml.mapping?, render, Rendering.linesOf_ofSets h, hgather]
  exact if_pos (Rendering.nodup_setsOf _)

/-- Kinds that take turns, a value that occurs twice, and values that need escapes. -/
def turns : List Item :=
  [.rule ⟨.regex, "^\"\\d\t$", ""⟩, .comment "# a", .rule ⟨.exact, "g.co", "@cn"⟩,
    .rule ⟨.regex, "\x00\x01\x1b ", ""⟩, .rule ⟨.exact, "g.co", ""⟩]

theorem mapping?_render_egern_turns :
    (∀ rule ∈ rulesOf turns, '\n' ∉ rule.value.toList) ∧
      Yaml.mapping? (render .egern turns) = some
        [("domain_set", ["g.co", "g.co"]), ("domain_regex_set", ["^\"\\d\t$", "\x00\x01\x1b "])] := by
  have hturns : ∀ rule ∈ rulesOf turns, '\n' ∉ rule.value.toList := by decide
  exact ⟨hturns, (mapping?_render_egern hturns).1⟩

end DomainRules
