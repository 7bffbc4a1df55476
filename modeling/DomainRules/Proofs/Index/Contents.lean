import DomainRules.Index
import DomainRules.Proofs.Archive.Order
import DomainRules.Proofs.Text.Lines
import DomainRules.Proofs.Value.Members

namespace DomainRules

open Text

namespace Index

def body (base : List Char) (names : List String) : List Char :=
  joinWith [',', '\n'] (names.map fun name => line base name.toList) ++ ['\n', '\x7d']

def listed (base : List Char) (name : String) : String × Value :=
  (name, .text (String.ofList (address base name.toList)))

variable {base : List Char}

theorem body_cons_cons (base : List Char) (name next : String) (names : List String) :
    body base (name :: next :: names) =
      line base name.toList ++ ',' :: '\n' :: body base (next :: names) := by
  rw [body, List.map_cons, List.map_cons, joinWith, List.append_assoc, List.append_assoc]
  rfl

theorem skip_line (base name rest : List Char) :
    Value.skip (line base name ++ rest) =
      quote name ++ ':' :: ' ' :: (quote (address base name) ++ rest) := by
  have hline : line base name ++ rest =
      ' ' :: ' ' :: (quote name ++ ':' :: ' ' :: (quote (address base name) ++ rest)) := by
    rw [line]
    simp only [List.cons_append, List.append_assoc]
  rw [hline, quote_append]
  rfl

theorem readMember?_line (base rest : List Char) (name : String) (fuel : Nat) :
    Value.readMember? (fuel + 1) (line base name.toList ++ rest) =
      some (listed base name, rest) := by
  rw [Value.readMember?_text fuel (skip_line base name.toList rest), String.ofList_toList]
  rfl

theorem readMembers?_body (base : List Char) {names : List String} (hne : names ≠ []) {fuel : Nat}
    (hfuel : names.length < fuel) :
    Value.readMembers? fuel (body base names) = some (names.map (listed base), []) := by
  induction names generalizing fuel with
  | nil => exact absurd rfl hne
  | cons name names ih =>
    -- One unit is for the member, and one for its value.
    obtain ⟨fuel, rfl⟩ : ∃ more, fuel = more + 2 := ⟨fuel - 2, by simp at hfuel; omega⟩
    rw [Value.readMembers?]
    cases names with
    | nil =>
      have hbody : body base [name] = line base name.toList ++ ['\n', '\x7d'] := rfl
      rw [hbody, readMember?_line]
      rfl
    | cons next names =>
      have hrest : Value.readMembers? (fuel + 1) ('\n' :: body base (next :: names)) =
          some ((next :: names).map (listed base), []) := by
        have hskip : Value.skip ('\n' :: body base (next :: names)) =
            Value.skip (body base (next :: names)) := rfl
        rw [Value.readMembers?_congr hskip]
        apply ih (List.cons_ne_nil _ _)
        rw [List.length_cons] at hfuel
        omega
      have hcomma : Value.skip (',' :: '\n' :: body base (next :: names)) =
          ',' :: '\n' :: body base (next :: names) := rfl
      rw [body_cons_cons, readMember?_line]
      simp only [Option.bind_eq_bind, Option.bind_some, hcomma, hrest]
      rfl

theorem length_lt_length_body (base : List Char) (names : List String) :
    names.length < (body base names).length := by
  induction names with
  | nil => exact Nat.zero_lt_succ _
  | cons name names ih =>
    cases names with
    | nil =>
      have hbody : body base [name] = line base name.toList ++ ['\n', '\x7d'] := rfl
      rw [hbody, List.length_append]
      simp
    | cons next names =>
      rw [body_cons_cons, List.length_append, List.length_cons, List.length_cons]
      simp only [List.length_cons] at ih ⊢
      omega

theorem toList_render_nil (base : String) : (render [] base).toList = ['\x7b', '\x7d'] := by
  rw [render, if_pos List.isEmpty_nil]
  rfl

theorem toList_render {names : List String} (hne : names ≠ []) (base : String) :
    (render names base).toList = '\x7b' :: '\n' :: body base.toList names := by
  have hempty : ¬ names.isEmpty = true := fun h => hne (List.isEmpty_iff.mp h)
  rw [render, if_neg hempty, String.toList_ofList]
  rfl

theorem exists_body_eq (base : List Char) {names : List String} (hne : names ≠ []) :
    ∃ front, Value.skip ('\n' :: body base names) = '"' :: front := by
  obtain ⟨name, names, rfl⟩ := List.exists_cons_of_ne_nil hne
  cases names with
  | nil => exact ⟨_, skip_line base name.toList _⟩
  | cons next names =>
    rw [body_cons_cons]
    exact ⟨_, skip_line base name.toList _⟩

theorem members?_render_toList (names : List String) (base : String) :
    Value.members? (render names base).toList = some (names.map (listed base.toList)) := by
  by_cases hnames : names = []
  · rw [hnames, toList_render_nil]
    rfl
  · have hopen : Value.skip ('\x7b' :: '\n' :: body base.toList names) =
        '\x7b' :: '\n' :: body base.toList names := rfl
    have hskip : Value.skip ('\n' :: body base.toList names) =
        Value.skip (body base.toList names) := rfl
    have hlength := length_lt_length_body base.toList names
    obtain ⟨front, hfront⟩ := exists_body_eq base.toList hnames
    rw [toList_render hnames, Value.members?_object hopen, Value.readObject?_of_quote hfront,
      Value.readMembers?_congr hskip, readMembers?_body base.toList hnames]
    · rfl
    · rw [List.length_cons, List.length_cons]
      omega

def directory (root : String) (names : List String) : List (String × Value) :=
  names.map fun name => (name, .text (root ++ "/" ++ name))

theorem map_listed (base : List Char) (names : List String) :
    names.map (listed base) = directory (String.ofList (dropTrailingSlashes base)) names := by
  apply List.map_congr_left
  intro name _
  have haddress : String.ofList (address base name.toList) =
      String.ofList (dropTrailingSlashes base) ++ "/" ++ name := by
    apply String.toList_injective
    simp only [String.toList_append, String.toList_ofList, List.append_assoc]
    rfl
  rw [listed, haddress]

theorem merged_directory (root : String) {names : List String} (h : names.Nodup) :
    Value.merged [] (directory root names) = directory root names := by
  have hkeys : (directory root names).map Prod.fst = names := by
    rw [directory, List.map_map]
    exact List.map_id names
  have hnodup : (([] ++ directory root names).map Prod.fst).Nodup := by
    rw [List.nil_append, hkeys]
    exact h
  rw [Value.merged_of_nodup hnodup, List.nil_append]

/-- The index of an archive is an object with one member for each list, in strict order of the
names, that gives its address under the base. This holds for all names and bases: whatever they
are, they add no member to the object, take none from it and do not change their order. -/
theorem members?_render (entries : List (String × Content)) (base : String) :
    (Archive.ofEntries entries).names.Pairwise (fun a b => unitOrder a b = true) ∧
      (∀ name, name ∈ (Archive.ofEntries entries).names ↔ ∃ content, (name, content) ∈ entries) ∧
      ∃ root slashes, base = root ++ slashes ∧ (∀ c ∈ slashes.toList, c = '/') ∧
        root.toList.getLast? ≠ some '/' ∧
        Value.members? (render (Archive.ofEntries entries).names base).toList =
          some (directory root (Archive.ofEntries entries).names) ∧
        Value.ofJson? (render (Archive.ofEntries entries).names base).toList =
          some (.record (directory root (Archive.ofEntries entries).names)) := by
  have hordered := Archive.pairwise_names_ofEntries entries
  have hnodup := Archive.nodup_names_ofEntries entries
  generalize hnames : (Archive.ofEntries entries).names = names at hordered hnodup ⊢
  obtain ⟨slashes, hbase, hslashes, hlast⟩ := Text.exists_slashes base.toList
  -- Reading the members back needs nothing of the names; the object needs them distinct.
  have hmembers := members?_render_toList names base
  rw [map_listed] at hmembers
  refine ⟨hordered, ?_, String.ofList (dropTrailingSlashes base.toList), String.ofList slashes,
    ?_, ?_, ?_, hmembers, ?_⟩
  · intro name
    rw [← hnames]
    exact Archive.mem_names_ofEntries_iff entries name
  · apply String.toList_injective
    rw [String.toList_append, String.toList_ofList, String.toList_ofList]
    exact hbase
  · rw [String.toList_ofList]
    exact hslashes
  · rw [String.toList_ofList]
    exact hlast
  · exact Value.ofJson?_eq_record_iff.mpr ⟨_, hmembers, merged_directory _ hnodup⟩

end Index

end DomainRules
