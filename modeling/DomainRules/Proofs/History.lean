namespace DomainRules.History

variable {σ ε α : Type}

/-- What is seen of the events, in order. Each is looked at together with the state before it. -/
def seen (step : σ → ε → σ) (look : σ → ε → Option α) (state : σ) : List ε → List α
  | [] => []
  | event :: events => (look state event).toList ++ seen step look (step state event) events

theorem seen_concat (step : σ → ε → σ) (look : σ → ε → Option α) (state : σ) (events : List ε)
    (event : ε) :
    seen step look state (events ++ [event]) =
      seen step look state events ++ (look (events.foldl step state) event).toList := by
  induction events generalizing state with
  | nil => simp [seen]
  | cons first events ih =>
    rw [List.cons_append, seen, ih, seen, List.append_assoc]
    rfl

theorem getLast?_filter_concat (kind : α → Bool) (others : List α) (a : α) :
    ((others ++ [a]).filter kind).getLast? =
      if kind a = true then some a else (others.filter kind).getLast? := by
  rw [List.filter_append]
  by_cases ha : kind a = true
  · rw [List.filter_cons_of_pos ha, List.filter_nil, List.getLast?_concat, if_pos ha]
  · rw [List.filter_cons_of_neg ha, List.filter_nil, List.append_nil, if_neg ha]

end DomainRules.History
