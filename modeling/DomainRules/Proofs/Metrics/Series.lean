import DomainRules.Metrics

namespace DomainRules.Metrics

variable {metrics : Metrics} {metric other : Metric} {label otherLabel : String} {f : Nat → Nat}

theorem isSeries_change (s : Sample) (c : Bool) (n : Nat) (metric : Metric) (label : String) :
    ((if c = true then { s with value := n } else s).metric == metric &&
      (if c = true then { s with value := n } else s).label == label) =
        (s.metric == metric && s.label == label) := by
  cases c <;> rfl

theorem any_series_eq (metrics : Metrics) (metric : Metric) (label : String) :
    (metrics.samples.any fun s => s.metric == metric && s.label == label) =
      (metrics.samples.find? fun s => s.metric == metric && s.label == label).isSome := by
  rw [Bool.eq_iff_iff, List.find?_isSome, List.any_eq_true]

theorem value_update (metrics : Metrics) (metric : Metric) (label : String) (f : Nat → Nat) :
    (metrics.update metric label f).value metric label = f (metrics.value metric label) := by
  unfold update value
  rw [any_series_eq]
  cases hfound : metrics.samples.find? fun s => s.metric == metric && s.label == label with
  | none => simp [hfound]
  | some s =>
    have hs := List.find?_some hfound
    -- The sample that is found is the one that was changed.
    have hsame : ((fun s : Sample => s.metric == metric && s.label == label) ∘ fun s : Sample =>
        if s.metric == metric && s.label == label then { s with value := f s.value } else s) =
          fun s => s.metric == metric && s.label == label := by
      funext s
      exact isSeries_change s _ _ metric label
    simp only [Option.isSome_some, if_true, List.find?_map, hsame, hfound, Option.map_some]
    rw [if_pos hs]

theorem value_update_of_pair_ne (h : (metric, label) ≠ (other, otherLabel)) :
    (metrics.update metric label f).value other otherLabel = metrics.value other otherLabel := by
  have hno : ∀ s : Sample, (s.metric == other && s.label == otherLabel) = true →
      (s.metric == metric && s.label == label) = false := by
    intro s hs
    rw [Bool.and_eq_true, beq_iff_eq, beq_iff_eq] at hs
    rw [Bool.eq_false_iff]
    intro hchanged
    rw [Bool.and_eq_true, beq_iff_eq, beq_iff_eq] at hchanged
    apply h
    rw [← hchanged.1, ← hchanged.2, hs.1, hs.2]
  -- A change is made to a sample in its place, or it adds one behind all others.
  by_cases hany : (metrics.samples.any fun s => s.metric == metric && s.label == label) = true
  · rw [update, if_pos hany]
    unfold value
    have hsame : ((fun s : Sample => s.metric == other && s.label == otherLabel) ∘ fun s : Sample =>
        if s.metric == metric && s.label == label then { s with value := f s.value } else s) =
          fun s => s.metric == other && s.label == otherLabel := by
      funext s
      exact isSeries_change s _ _ other otherLabel
    simp only [List.find?_map, hsame]
    cases hfound : metrics.samples.find? fun s => s.metric == other && s.label == otherLabel with
    | none => rfl
    | some s =>
      have hs := List.find?_some hfound
      simp only [Option.map_some]
      rw [if_neg (by rw [hno s hs]; exact Bool.false_ne_true)]
  · rw [update, if_neg hany]
    unfold value
    simp only [List.find?_append]
    cases hfound : metrics.samples.find? fun s => s.metric == other && s.label == otherLabel with
    | none =>
      have hnew : (metric == other && label == otherLabel) = false := by
        rw [Bool.eq_false_iff, ne_eq, Bool.and_eq_true, beq_iff_eq, beq_iff_eq]
        rintro ⟨rfl, rfl⟩
        exact h rfl
      simp [hnew]
    | some s => rfl

theorem value_update_of_ne (h : metric ≠ other) :
    (metrics.update metric label f).value other otherLabel = metrics.value other otherLabel :=
  value_update_of_pair_ne fun he => h (congrArg Prod.fst he)

theorem value_note_gauge (metrics : Metrics) (metric : Metric) (value : Nat) :
    (metrics.note (.gauge metric value)).value metric "" = value :=
  value_update metrics metric "" fun _ => value

theorem value_note_gauge_of_ne (h : metric ≠ other) (value : Nat) :
    (metrics.note (.gauge metric value)).value other otherLabel =
      metrics.value other otherLabel := value_update_of_ne h

theorem value_note_tick (metrics : Metrics) (metric : Metric) :
    (metrics.note (.tick metric)).value metric "" = metrics.value metric "" + 1 :=
  value_update metrics metric "" (· + 1)

theorem value_note_tick_of_ne (h : metric ≠ other) :
    (metrics.note (.tick metric)).value other otherLabel = metrics.value other otherLabel :=
  value_update_of_ne h

end DomainRules.Metrics
