import DomainRules.Proofs.Expansion.Inclusion
import DomainRules.Proofs.Expansion.Selection
import DomainRules.Proofs.Text.Lines

namespace DomainRules

/-- The lines of a text without the blanks around them, and without those that are blank. -/
def shownLines (text : String) : List (List Char) :=
  ((Text.splitOn '\n' text.toList).map Text.trim).filter (· ≠ [])

/-- What a line adds to the items of any text in which it stands. -/
def contribution (archive : Archive) (filter : String) (line : List Char) : List Item :=
  match (Line.readTrimmed line).inclusion? with
  | none => (Line.readTrimmed line).ownItems filter
  | some name =>
    match (expandMember archive filter name).result with
    | .ok items => includedItems (String.ofList line) items
    | .error _ => []

theorem Line.readTrimmed_of_inclusion? {line : List Char} {name : String}
    (h : (readTrimmed line).inclusion? = some name) :
    name ≠ "" ∧ readTrimmed line = .inclusion name (String.ofList line) := by
  have hshape : ∀ own text, readTrimmed line = .inclusion own text → text = String.ofList line := by
    intro own text ht
    unfold readTrimmed at ht
    split at ht
    · cases ht
    · cases ht
    · split at ht
      · exact (Line.inclusion.inj ht).2.symm
      · unfold readRule at ht
        dsimp only at ht
        split at ht <;> cases ht
  cases hl : readTrimmed line with
  | inclusion own text =>
    rw [hl, inclusion?] at h
    split at h
    · cases h
    · rename_i hne
      have hown : own = name := Option.some.inj h
      rw [hshape own text hl, ← hown]
      exact ⟨hne, rfl⟩
  | _ =>
    rw [hl] at h
    cases h

theorem Line.readTrimmed_append (rest : List Char) :
    readTrimmed (inclusionMark ++ rest) =
      .inclusion (String.ofList ((token (inclusionMark ++ rest)).drop inclusionMark.length))
        (String.ofList (inclusionMark ++ rest)) := rfl

theorem Line.inclusion?_readTrimmed_append {name : String} (hn : name ≠ "")
    (hspace : ' ' ∉ name.toList) {rest : List Char} (hrest : rest = [] ∨ rest.head? = some ' ') :
    (readTrimmed (inclusionMark ++ name.toList ++ rest)).inclusion? = some name := by
  have hmark : ' ' ∉ inclusionMark ++ name.toList := by
    rw [List.mem_append, not_or]
    exact ⟨by decide, hspace⟩
  have htoken : token (inclusionMark ++ name.toList ++ rest) = inclusionMark ++ name.toList :=
    (Text.cut_append hmark hrest).1
  have hread : readTrimmed (inclusionMark ++ name.toList ++ rest) =
      .inclusion name (String.ofList (inclusionMark ++ name.toList ++ rest)) := by
    have hmarked := readTrimmed_append (name.toList ++ rest)
    rw [← List.append_assoc, htoken, List.drop_left, String.ofList_toList] at hmarked
    exact hmarked
  rw [hread, inclusion?, if_neg hn]

section Lines

variable {archive : Archive} {filter : String} {path : List String}

theorem expand_cons_congr (line : Line) {lines others : List Line}
    (h : expand archive filter path lines = expand archive filter path others) :
    expand archive filter path (line :: lines) = expand archive filter path (line :: others) := by
  cases line with
  | nothing => rw [expand_nothing, expand_nothing, h]
  | comment text => rw [expand_comment, expand_comment, h]
  | rule rule =>
    cases hs : rule.isSelectedBy filter with
    | true =>
      rw [expand_rule_of_selected archive filter path hs,
        expand_rule_of_selected archive filter path hs, h]
    | false =>
      rw [expand_rule_of_not_selected archive filter path hs,
        expand_rule_of_not_selected archive filter path hs, h]
  | inclusion name text =>
    by_cases hn : name = ""
    · rw [hn, expand_inclusion_empty, expand_inclusion_empty, h]
    · by_cases hp : path.contains name = true
      · rw [expand_inclusion_cyclic archive filter hn hp,
          expand_inclusion_cyclic archive filter hn hp]
      · cases hr : archive.read name with
        | error failure =>
          rw [expand_inclusion_unread filter hn hp hr, expand_inclusion_unread filter hn hp hr]
        | ok own =>
          rw [expand_inclusion_read filter hn hp hr, expand_inclusion_read filter hn hp hr, h]

/-- Blank lines, and the blanks around the others, say nothing. -/
theorem expand_ofText (text : String) :
    expand archive filter path (Line.ofText text) =
      expand archive filter path ((shownLines text).map Line.readTrimmed) := by
  unfold Line.ofText shownLines
  induction Text.splitOn '\n' text.toList with
  | nil => rfl
  | cons piece pieces ih =>
    by_cases hblank : Text.trim piece = []
    · have hnothing : Line.read piece = .nothing := by rw [Line.read, hblank, Line.readTrimmed]
      rw [List.map_cons, hnothing, expand_nothing, ih, List.map_cons, hblank]
      rfl
    · rw [List.map_cons, List.map_cons, List.filter_cons_of_pos (by simpa using hblank),
        List.map_cons]
      exact expand_cons_congr (Line.read piece) ih

variable {lines : List Line} {items : List Item}

/-- On a shorter path there are fewer lists to come back to, and the items are the same. -/
theorem expand_eq_ok_of_subset {shorter : List String} (hsub : shorter ⊆ path)
    (h : (expand archive filter path lines).result = .ok items) :
    (expand archive filter shorter lines).result = .ok items := by
  induction path, lines using expansion_induction archive generalizing shorter items with
  | nil path =>
    rw [expand_nil] at h ⊢
    exact h
  | skip path line lines hline ih =>
    obtain ⟨steps, -, he⟩ := expand_cons_of_none hline archive filter path lines
    obtain ⟨others, -, ho⟩ := expand_cons_of_none hline archive filter shorter lines
    rw [he] at h
    obtain ⟨rest, hrest, hitems⟩ := Reading.result_map_eq_ok.mp h
    rw [ho]
    exact Reading.result_map_eq_ok.mpr ⟨rest, ih hsub hrest, hitems⟩
  | cyclic path name line lines hn hp =>
    exact absurd hp ((result_expand_inclusion_eq_ok hn).mp h).1
  | unread path name line lines failure hn hp hr =>
    obtain ⟨-, text, -, -, hread, -⟩ := (result_expand_inclusion_eq_ok hn).mp h
    cases hr.symm.trans hread
  | read path name line lines text hn hp hr ihsub ihrest =>
    obtain ⟨-, own, inner, rest, hread, hinner, hrest, hitems⟩ :=
      (result_expand_inclusion_eq_ok hn).mp h
    have hown : own = text := Except.ok.inj (hread.symm.trans hr)
    rw [hown] at hinner
    have hnew : name ∉ shorter := fun hmem => hp (hsub hmem)
    -- Both paths grow by the same name, so the one stays within the other.
    have hlonger : shorter ++ [name] ⊆ path ++ [name] := by
      intro other ho
      rcases List.mem_append.mp ho with ho | ho
      · exact List.mem_append_left _ (hsub ho)
      · exact List.mem_append_right _ ho
    apply (result_expand_inclusion_eq_ok hn).mpr
    exact ⟨hnew, text, inner, rest, hr, ihsub hlonger hinner, ihrest hsub hrest, hitems⟩

theorem contribution_of_none {line : List Char} (h : (Line.readTrimmed line).inclusion? = none) :
    contribution archive filter line = (Line.readTrimmed line).ownItems filter := by
  rw [contribution, h]

theorem contribution_of_ok {line : List Char} {name : String}
    (h : (Line.readTrimmed line).inclusion? = some name) {inner : List Item}
    (hinner : (expandMember archive filter name).result = .ok inner) :
    contribution archive filter line = includedItems (String.ofList line) inner := by
  simp only [contribution, h, hinner]

theorem expand_lines_eq_flatMap {lines : List (List Char)}
    (h : (expand archive filter path (lines.map Line.readTrimmed)).result = .ok items) :
    items = lines.flatMap (contribution archive filter) ∧
      ∀ line ∈ lines, ∀ name, (Line.readTrimmed line).inclusion? = some name →
        ∃ inner, (expandMember archive filter name).result = .ok inner := by
  induction lines generalizing items with
  | nil =>
    rw [List.map_nil, expand_nil] at h
    refine ⟨(Except.ok.inj h).symm, ?_⟩
    intro line hl
    cases hl
  | cons line lines ih =>
    rw [List.map_cons] at h
    cases hi : (Line.readTrimmed line).inclusion? with
    | none =>
      obtain ⟨steps, -, he⟩ := expand_cons_of_none hi archive filter path _
      rw [he] at h
      obtain ⟨rest, hrest, hitems⟩ := Reading.result_map_eq_ok.mp h
      obtain ⟨hflat, hincluded⟩ := ih hrest
      refine ⟨?_, ?_⟩
      · rw [List.flatMap_cons, contribution_of_none hi, ← hitems, ← hflat]
      · intro other ho name hname
        rcases List.mem_cons.mp ho with rfl | ho
        · cases hi.symm.trans hname
        · exact hincluded other ho name hname
    | some name =>
      obtain ⟨hn, hline⟩ := Line.readTrimmed_of_inclusion? hi
      rw [hline] at h
      obtain ⟨-, text, inner, rest, hr, hinner, hrest, hitems⟩ :=
        (result_expand_inclusion_eq_ok hn).mp h
      obtain ⟨hflat, hincluded⟩ := ih hrest
      -- A member that is asked for is expanded on a path that holds its own name only.
      have hmember : (expandMember archive filter name).result = .ok inner := by
        rw [result_expandMember_of_read hr]
        exact expand_eq_ok_of_subset (List.subset_append_right path [name]) hinner
      refine ⟨?_, ?_⟩
      · rw [List.flatMap_cons, contribution_of_ok hi hmember, ← hflat]
        exact hitems
      · intro other ho own hown
        rcases List.mem_cons.mp ho with rfl | ho
        · have hsame : name = own := Option.some.inj (hi.symm.trans hown)
          exact ⟨inner, hsame ▸ hmember⟩
        · exact hincluded other ho own hown

end Lines

/-- The items of a text are those that its shown lines contribute, one after another. A line that
includes another list contributes what that list gives when it is asked for alone, behind the line
itself, or nothing if that has no rules. The path on which a text is reached only decides whether its
expansion succeeds, and texts with the same shown lines expand alike. -/
theorem expandText_compositional (archive : Archive) (filter text : String) :
    (∀ items, (expandText archive filter text).result = .ok items →
      items = (shownLines text).flatMap (contribution archive filter) ∧
        ∀ (name : String) (rest : List Char), name ≠ "" → ' ' ∉ name.toList →
          rest = [] ∨ rest.head? = some ' ' →
          "include:".toList ++ name.toList ++ rest ∈ shownLines text →
          ∃ inner, (expandMember archive filter name).result = .ok inner ∧
            contribution archive filter ("include:".toList ++ name.toList ++ rest) =
              if rulesOf inner = [] then []
              else .comment ("# " ++ String.ofList ("include:".toList ++ name.toList ++ rest)) ::
                inner) ∧
      (∀ path items, (expand archive filter path (Line.ofText text)).result = .ok items →
        (expandText archive filter text).result = .ok items) ∧
      ∀ other path, shownLines other = shownLines text →
        expand archive filter path (Line.ofText other) =
          expand archive filter path (Line.ofText text) := by
  refine ⟨?_, ?_, ?_⟩
  · -- The first case is the one with an argument: on success no list comes back to the path, so
    -- each inclusion gives what its list gives alone.
    intro items h
    rw [expandText, expand_ofText] at h
    obtain ⟨hflat, hincluded⟩ := expand_lines_eq_flatMap h
    refine ⟨hflat, ?_⟩
    intro name rest hn hspace hrest hl
    have hname := Line.inclusion?_readTrimmed_append hn hspace hrest
    obtain ⟨inner, hinner⟩ := hincluded _ hl name hname
    have hcontribution : contribution archive filter ("include:".toList ++ name.toList ++ rest) =
        includedItems (String.ofList ("include:".toList ++ name.toList ++ rest)) inner :=
      contribution_of_ok hname hinner
    refine ⟨inner, hinner, ?_⟩
    rw [hcontribution, includedItems]
    simp only [List.isEmpty_iff]
  · intro path items h
    exact expand_eq_ok_of_subset (List.nil_subset path) h
  · intro other path h
    rw [expand_ofText, expand_ofText, h]

/-- A list whose only rule is that of a list it includes, and one without rules. -/
def layered : Archive :=
  ⟨[("sub", .text "# sub\ninclude:deep"), ("deep", .text "full:deep.org"),
    ("none", .text "# nothing\ninclude:bare"), ("bare", .text "domain:")]⟩

/-- The text of a member of its own, once with line feeds and once with other line ends. -/
theorem expandText_compositional_layered :
    ∃ items, (expandText layered "" "include:sub @x\ninclude:none\ntop.org").result = .ok items ∧
      items = (shownLines "include:sub @x\ninclude:none\ntop.org").flatMap
        (contribution layered "") ∧
      (∃ inner, (expandMember layered "" "none").result = .ok inner ∧
        contribution layered "" "include:none".toList =
          if rulesOf inner = [] then [] else .comment "# include:none" :: inner) ∧
      expandText layered "" "\r\n include:sub @x\r\ninclude:none \r\n\t\r\ntop.org\r\n" =
        expandText layered "" "include:sub @x\ninclude:none\ntop.org" := by
  have hlines : Line.ofText "include:sub @x\ninclude:none\ntop.org" =
      [.inclusion "sub" "include:sub @x", .inclusion "none" "include:none",
        .rule ⟨.suffix, "top.org", ""⟩] := by decide +kernel
  have hsub : layered.read "sub" = .ok "# sub\ninclude:deep" := rfl
  have hdeep : layered.read "deep" = .ok "full:deep.org" := rfl
  have hnone : layered.read "none" = .ok "# nothing\ninclude:bare" := rfl
  have hbare : layered.read "bare" = .ok "domain:" := rfl
  have hsubLines : Line.ofText "# sub\ninclude:deep" =
      [.comment "# sub", .inclusion "deep" "include:deep"] := by decide +kernel
  have hdeepLines : Line.ofText "full:deep.org" = [.rule ⟨.exact, "deep.org", ""⟩] := by
    decide +kernel
  have hnoneLines : Line.ofText "# nothing\ninclude:bare" =
      [.comment "# nothing", .inclusion "bare" "include:bare"] := by decide +kernel
  have hbareLines : Line.ofText "domain:" = [.nothing] := by decide +kernel
  have hitems : (expandText layered "" "include:sub @x\ninclude:none\ntop.org").result =
      .ok [.comment "# include:sub @x", .comment "# sub", .comment "# include:deep",
        .rule ⟨.exact, "deep.org", ""⟩, .rule ⟨.suffix, "top.org", ""⟩] := by
    rw [expandText, hlines, expand_inclusion_read "" (by decide) (by decide) hsub,
      expand_inclusion_read "" (by decide) (by decide) hnone, hsubLines, hnoneLines,
      expand_comment, expand_comment, expand_inclusion_read "" (by decide) (by decide) hdeep,
      expand_inclusion_read "" (by decide) (by decide) hbare, hdeepLines, hbareLines,
      expand_nothing, expand_rule_of_selected _ _ _ (Rule.isSelectedBy_empty _),
      expand_rule_of_selected _ _ _ (Rule.isSelectedBy_empty _)]
    simp only [expand_nil]
    rfl
  obtain ⟨hparts, -, halike⟩ :=
    expandText_compositional layered "" "include:sub @x\ninclude:none\ntop.org"
  obtain ⟨hflat, hincluded⟩ := hparts _ hitems
  refine ⟨_, hitems, hflat, ?_, ?_⟩
  · exact hincluded "none" [] (by decide) (by decide) (.inl rfl) (by decide +kernel)
  · exact halike _ [] (by decide +kernel)

end DomainRules
