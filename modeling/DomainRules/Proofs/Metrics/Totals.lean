import DomainRules.Proofs.Metrics.Series
import Mathlib.Algebra.GroupWithZero.Nat
import Mathlib.Data.List.Nodup

namespace DomainRules

def Notice.metric? : Notice → Option Metric
  | .count metric _ _ => some metric
  | .gauge metric _ => some metric
  | _ => none

namespace Metrics

def TicksOnly (metric : Metric) (notices : List Notice) : Prop :=
  ∀ notice ∈ notices, notice.metric? = some metric → ∃ label, notice = .count metric label 1

def total (metrics : Metrics) (metric : Metric) : Nat :=
  ((metrics.seriesOf metric).map (·.value)).sum

def series (s : Sample) : Metric × String := (s.metric, s.label)

def IsSingle (metrics : Metrics) : Prop := (metrics.samples.map series).Nodup

def changed (metric : Metric) (label : String) (f : Nat → Nat) (s : Sample) : Sample :=
  if s.metric == metric && s.label == label then { s with value := f s.value } else s

def sumOf (metric : Metric) (samples : List Sample) : Nat :=
  ((samples.filter (·.metric == metric)).map (·.value)).sum

variable {metrics : Metrics} {metric other : Metric} {label : String} {notice : Notice}
  {notices : List Notice}

theorem note_of_metric?_eq_none (h : notice.metric? = none) : metrics.note notice = metrics := by
  cases notice <;> first | rfl | cases h

theorem exists_note_eq (metrics : Metrics) (h : notice.metric? = some other) :
    ∃ label f, metrics.note notice = metrics.update other label f := by
  cases notice with
  | count metric label amount =>
    cases h
    exact ⟨label, (· + amount), rfl⟩
  | gauge metric value =>
    cases h
    exact ⟨"", fun _ => value, rfl⟩
  | _ => cases h

theorem value_note_of_ne (h : notice.metric? ≠ some metric) :
    (metrics.note notice).value metric label = metrics.value metric label := by
  cases hnotice : notice.metric? with
  | none => rw [note_of_metric?_eq_none hnotice]
  | some other =>
    obtain ⟨otherLabel, f, hupdate⟩ := exists_note_eq metrics hnotice
    rw [hupdate]
    apply value_update_of_ne
    rintro rfl
    exact h hnotice

theorem value_note_count (other : String) :
    (metrics.note (.count metric other 1)).value metric label =
      metrics.value metric label + if other = label then 1 else 0 := by
  rw [note]
  split
  · rename_i h
    rw [h]
    exact value_update metrics metric label (· + 1)
  · rename_i h
    exact value_update_of_pair_ne fun he => h (congrArg Prod.snd he)

/-- A series tells how often it was counted up. -/
theorem value_noteAll (h : TicksOnly metric notices) :
    (metrics.noteAll notices).value metric label =
      metrics.value metric label + notices.count (.count metric label 1) := by
  induction notices generalizing metrics with
  | nil => rfl
  | cons notice notices ih =>
    have hrest : TicksOnly metric notices := fun other ho => h other (List.mem_cons_of_mem _ ho)
    have hfirst := h notice List.mem_cons_self
    have hall : metrics.noteAll (notice :: notices) = (metrics.note notice).noteAll notices := rfl
    rw [hall, ih hrest, List.count_cons]
    by_cases hmetric : notice.metric? = some metric
    · obtain ⟨other, rfl⟩ := hfirst hmetric
      have hsame :
          (Notice.count metric other 1 == .count metric label 1) = decide (other = label) := by
        rw [Bool.eq_iff_iff, beq_iff_eq, decide_eq_true_iff]
        exact ⟨fun he => (Notice.count.inj he).2.1, fun he => he ▸ rfl⟩
      rw [value_note_count, hsame]
      simp only [decide_eq_true_eq]
      omega
    · have hother : (notice == .count metric label 1) = false := by
        rw [beq_eq_false_iff_ne]
        rintro rfl
        exact hmetric rfl
      rw [value_note_of_ne hmetric, hother]
      rfl

section Sum

variable {samples : List Sample} {s : Sample} {f : Nat → Nat}

theorem isSeries_iff :
    (s.metric == metric && s.label == label) = true ↔ series s = (metric, label) := by
  rw [Bool.and_eq_true, beq_iff_eq, beq_iff_eq, series, Prod.mk.injEq]

theorem changed_of_eq (h : series s = (metric, label)) :
    changed metric label f s = { s with value := f s.value } := if_pos (isSeries_iff.mpr h)

theorem changed_of_ne (h : series s ≠ (metric, label)) : changed metric label f s = s :=
  if_neg fun he => h (isSeries_iff.mp he)

theorem series_changed : series (changed metric label f s) = series s := by
  unfold changed
  split <;> rfl

theorem map_changed_of_notMem (h : (metric, label) ∉ samples.map series) :
    samples.map (changed metric label f) = samples := by
  calc
    samples.map (changed metric label f)
    _ = samples.map id :=
      List.map_congr_left fun s hs => changed_of_ne fun he => h (he ▸ List.mem_map_of_mem hs)
    _ = samples := List.map_id samples

theorem sumOf_cons (s : Sample) (samples : List Sample) :
    sumOf metric (s :: samples) =
      (if s.metric = metric then s.value else 0) + sumOf metric samples := by
  unfold sumOf
  rw [List.filter_cons]
  by_cases h : s.metric = metric
  · rw [if_pos (beq_iff_eq.mpr h), if_pos h, List.map_cons, List.sum_cons]
  · rw [if_neg (by simpa using h), if_neg h, Nat.zero_add]

theorem sumOf_concat (s : Sample) (samples : List Sample) :
    sumOf metric (samples ++ [s]) =
      sumOf metric samples + if s.metric = metric then s.value else 0 := by
  have hlast : sumOf metric [s] = if s.metric = metric then s.value else 0 :=
    sumOf_cons s []
  rw [← hlast, sumOf, sumOf, sumOf, List.filter_append, List.map_append, List.sum_append]

theorem sumOf_map_changed (hsingle : (samples.map series).Nodup)
    (hmem : (metric, label) ∈ samples.map series) :
    sumOf metric (samples.map (changed metric label (· + 1))) = sumOf metric samples + 1 := by
  induction samples with
  | nil => cases hmem
  | cons s samples ih =>
    rw [List.map_cons, List.nodup_cons] at hsingle
    rw [List.map_cons, sumOf_cons, sumOf_cons]
    by_cases hs : series s = (metric, label)
    · -- The sample of the series is this one, so the others stay as they are.
      have hmetric : s.metric = metric := congrArg Prod.fst hs
      have hrest : (metric, label) ∉ samples.map series := hs ▸ hsingle.1
      rw [changed_of_eq hs, map_changed_of_notMem hrest, if_pos hmetric, if_pos hmetric]
      dsimp only
      omega
    · have hrest : (metric, label) ∈ samples.map series :=
        (List.mem_cons.mp hmem).resolve_left (Ne.symm hs)
      rw [changed_of_ne hs, ih hsingle.2 hrest]
      omega

theorem sumOf_map_changed_of_ne (h : other ≠ metric) :
    sumOf metric (samples.map (changed other label f)) = sumOf metric samples := by
  induction samples with
  | nil => rfl
  | cons s samples ih =>
    have hmetric : (changed other label f s).metric = s.metric := congrArg Prod.fst series_changed
    rw [List.map_cons, sumOf_cons, sumOf_cons, ih, hmetric]
    by_cases hs : s.metric = metric
    · rw [changed_of_ne fun he => h ((congrArg Prod.fst he).symm.trans hs)]
    · rw [if_neg hs, if_neg hs]

end Sum

section Total

theorem total_eq_sumOf (h : metric.labelName?.isSome = true) (metrics : Metrics) :
    metrics.total metric = sumOf metric metrics.samples := by
  obtain ⟨labelName, hlabel⟩ := Option.isSome_iff_exists.mp h
  rw [total, seriesOf, hlabel]
  rfl

theorem samples_update (metrics : Metrics) (metric : Metric) (label : String) (f : Nat → Nat) :
    (metrics.update metric label f).samples =
      if (metric, label) ∈ metrics.samples.map series then
        metrics.samples.map (changed metric label f)
      else metrics.samples ++ [{ metric, label, value := f 0 }] := by
  have hany : (metrics.samples.any fun s => s.metric == metric && s.label == label) = true ↔
      (metric, label) ∈ metrics.samples.map series := by
    rw [List.any_eq_true, List.mem_map]
    simp only [isSeries_iff]
  unfold update
  by_cases hmem : (metric, label) ∈ metrics.samples.map series
  · rw [if_pos (hany.mpr hmem), if_pos hmem]
    rfl
  · rw [if_neg (fun he => hmem (hany.mp he)), if_neg hmem]

theorem IsSingle.update (h : metrics.IsSingle) (metric : Metric) (label : String) (f : Nat → Nat) :
    (metrics.update metric label f).IsSingle := by
  rw [IsSingle, samples_update]
  split
  · have hmap : (metrics.samples.map (changed metric label f)).map series =
        metrics.samples.map series := by
      rw [List.map_map]
      exact List.map_congr_left fun s _ => series_changed
    rw [hmap]
    exact h
  · rename_i hnew
    rw [List.map_append]
    exact List.nodup_append_comm.mp (List.nodup_cons.mpr ⟨hnew, h⟩)

theorem IsSingle.note (h : metrics.IsSingle) (notice : Notice) : (metrics.note notice).IsSingle := by
  cases hnotice : notice.metric? with
  | none => rwa [note_of_metric?_eq_none hnotice]
  | some metric =>
    obtain ⟨label, f, hupdate⟩ := exists_note_eq metrics hnotice
    rw [hupdate]
    exact h.update metric label f

theorem total_note_count (hlabel : metric.labelName?.isSome = true) (h : metrics.IsSingle) :
    (metrics.note (.count metric label 1)).total metric = metrics.total metric + 1 := by
  rw [total_eq_sumOf hlabel, total_eq_sumOf hlabel, note, samples_update]
  split
  · rename_i hmem
    exact sumOf_map_changed h hmem
  · rw [sumOf_concat, if_pos rfl]

theorem total_note_of_ne (hlabel : metric.labelName?.isSome = true)
    (h : notice.metric? ≠ some metric) :
    (metrics.note notice).total metric = metrics.total metric := by
  cases hnotice : notice.metric? with
  | none => rw [note_of_metric?_eq_none hnotice]
  | some other =>
    have hne : other ≠ metric := fun he => h (hnotice.trans (congrArg some he))
    obtain ⟨label, f, hupdate⟩ := exists_note_eq metrics hnotice
    rw [hupdate, total_eq_sumOf hlabel, total_eq_sumOf hlabel, samples_update]
    split
    · exact sumOf_map_changed_of_ne hne
    · rw [sumOf_concat, if_neg hne, Nat.add_zero]

/-- All series of a metric together tell how many notices were about it. -/
theorem total_noteAll (hlabel : metric.labelName?.isSome = true) (hsingle : metrics.IsSingle)
    (h : TicksOnly metric notices) :
    (metrics.noteAll notices).total metric =
      metrics.total metric + notices.countP (·.metric? = some metric) := by
  induction notices generalizing metrics with
  | nil => rfl
  | cons notice notices ih =>
    have hrest : TicksOnly metric notices := fun other ho => h other (List.mem_cons_of_mem _ ho)
    have hall : metrics.noteAll (notice :: notices) = (metrics.note notice).noteAll notices := rfl
    rw [hall, ih (hsingle.note notice) hrest, List.countP_cons]
    by_cases hmetric : notice.metric? = some metric
    · obtain ⟨label, rfl⟩ := h notice List.mem_cons_self hmetric
      rw [total_note_count hlabel hsingle, if_pos (decide_eq_true hmetric)]
      omega
    · rw [total_note_of_ne hlabel hmetric, if_neg (by simpa using hmetric), Nat.add_zero]

end Total

end Metrics

end DomainRules
