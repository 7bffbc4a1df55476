import DomainRules.Archive
import DomainRules.Line
import DomainRules.Reading
/-!
Expansion of a list: its lines become items, and a line that includes another list becomes the
items of that list. The names on the way to a list are distinct, so the way is never longer than
the archive and the expansion ends.
-/
namespace DomainRules

def Archive.unvisited (archive : Archive) (path : List String) : List String :=
  archive.names.filter fun name => !path.contains name

theorem Archive.mem_names_of_read {archive : Archive} {name text : String}
    (h : archive.read name = .ok text) : name ∈ archive.names := by
  refine Decidable.byContradiction fun hn => ?_
  have hc : archive.content? name = none := by
    refine List.lookup_eq_none_iff.mpr fun member hm => ?_
    have hne : name ≠ member.1 := fun he => hn (he ▸ List.mem_map_of_mem hm)
    simpa using hne
  rw [Archive.read, hc] at h
  cases h

theorem Archive.length_unvisited_lt {archive : Archive} {path : List String} {name text : String}
    (hp : ¬ path.contains name = true) (hr : archive.read name = .ok text) :
    (archive.unvisited (path ++ [name])).length < (archive.unvisited path).length := by
  have hsub : archive.unvisited (path ++ [name]) =
      (archive.unvisited path).filter (fun other => !(other == name)) := by
    simp only [Archive.unvisited, List.filter_filter]
    refine List.filter_congr fun other _ => ?_
    by_cases ho : other = name <;> simp [ho]
  rw [hsub]
  refine List.length_filter_lt_length_iff_exists.mpr ⟨name, ?_, by simp⟩
  exact List.mem_filter.mpr ⟨mem_names_of_read hr, by simpa using hp⟩

/-- The failure of a list that was reached along a path. That an included list is missing is a
fault of the list that includes it. -/
def Failure.whenIncluded (path : List String) (name : String) : Failure → Failure
  | .listNotFound _ => .includedListNotFound name path.getLast?
  | failure => failure

/-- The items of an included list. One without rules adds nothing; else the line that includes
it comes first. -/
def includedItems (line : String) (items : List Item) : List Item :=
  if (rulesOf items).isEmpty then [] else .comment ("# " ++ line) :: items

/-- The items of the lines of a list that was reached along a path. -/
def expand (archive : Archive) (filter : String) (path : List String) :
    List Line → Reading (List Item)
  | [] => .done []
  | .nothing :: lines => expand archive filter path lines
  | .comment text :: lines => (expand archive filter path lines).map (.comment text :: ·)
  | .rule rule :: lines =>
    if rule.isSelectedBy filter then (expand archive filter path lines).map (.rule rule :: ·)
    else expand archive filter path lines
  | .inclusion name line :: lines =>
    if name = "" then (expand archive filter path lines).after [.turn]
    else if _hp : path.contains name then
      { steps := [.turn], result := .error (.cyclicInclude (path ++ [name])) }
    else match _hr : archive.read name with
      | .error failure =>
        { steps := [.read name, .turn, .turn, .turn],
          result := .error (failure.whenIncluded path name) }
      | .ok text =>
        (((expand archive filter (path ++ [name]) (Line.ofText text)).after
            [.read name, .turn, .turn]).before [.turn, .turn]).bind fun items =>
          (expand archive filter path lines).map (includedItems line items ++ ·)
termination_by lines => ((archive.unvisited path).length, lines.length)
decreasing_by
  all_goals first
    | exact Prod.Lex.right _ (Nat.lt_succ_self _)
    | exact Prod.Lex.left _ _ (Archive.length_unvisited_lt _hp _hr)

/-- The items of a text that is not itself a member. -/
def expandText (archive : Archive) (filter text : String) : Reading (List Item) :=
  expand archive filter [] (Line.ofText text)

/-- The items of a member. Its items are at hand one turn after its text, or later if it includes
others, and two turns pass until whoever asked goes on. -/
def expandMember (archive : Archive) (filter name : String) : Reading (List Item) :=
  match archive.read name with
  | .error failure => { steps := [.read name, .turn, .turn], result := .error failure }
  | .ok text =>
    let items := expand archive filter [name] (Line.ofText text)
    let rest := if items.steps.isEmpty then [Step.turn, .turn, .turn] else [.turn, .turn]
    (items.after [.read name, .turn]).before rest

end DomainRules
