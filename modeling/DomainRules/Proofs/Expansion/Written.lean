import DomainRules.Proofs.Expansion.Selection
import DomainRules.Proofs.Text.Lines

namespace DomainRules

namespace Text

def IsGap (s : List Char) : Prop := ∀ c ∈ s, isBlank c = true ∧ c ≠ '\n'

instance (s : List Char) : Decidable (IsGap s) := List.decidableBAll _ s

def IsLineEnd (s : List Char) : Prop := s = ['\n'] ∨ s = ['\r', '\n']

end Text

/-- What follows the value of a rule on its line: nothing, or a space and some text. -/
def Rule.behindValue (rule : Rule) : List Char :=
  if rule.comment = "" then [] else ' ' :: rule.comment.toList

def Item.line : Item → List Char
  | .rule r => r.kind.mark ++ r.value.toList ++ r.behindValue
  | .comment text => text.toList

/-- A text in which the lines of the items stand in order, each perhaps indented, with blank lines
anywhere between them. -/
inductive Written : List Item → List Char → Prop where
  | blank (gap : List Char) (hg : Text.IsGap gap) : Written [] gap
  | last (gap : List Char) (hg : Text.IsGap gap) (item : Item) : Written [item] (gap ++ item.line)
  | skip {items : List Item} (gap : List Char) {feed text : List Char} (hg : Text.IsGap gap)
      (hf : Text.IsLineEnd feed) (h : Written items text) : Written items (gap ++ feed ++ text)
  | next {items : List Item} (gap : List Char) {feed text : List Char} (hg : Text.IsGap gap)
      (item : Item) (hf : Text.IsLineEnd feed) (h : Written items text) :
    Written (item :: items) (gap ++ item.line ++ feed ++ text)

/-- A rule that a line can hold: its value is there and has no blank, and the text behind it has no
line feed and does not end in a blank. -/
structure Rule.FitsLine (rule : Rule) : Prop where
  value_ne : rule.value ≠ ""
  value : ∀ c ∈ rule.value.toList, Text.isBlank c = false
  comment : '\n' ∉ rule.comment.toList
  comment_end : ∀ c ∈ rule.comment.toList.getLast?, Text.isBlank c = false

def Item.FitsLine : Item → Prop
  | .rule r => r.FitsLine
  | .comment text => text.toList.head? = some '#' ∧ '\n' ∉ text.toList ∧
      ∀ c ∈ text.toList.getLast?, Text.isBlank c = false

instance (rule : Rule) : Decidable rule.FitsLine :=
  decidable_of_iff
    (rule.value ≠ "" ∧ rule.value.toList.all (Text.isBlank · = false) = true ∧
      '\n' ∉ rule.comment.toList ∧
      rule.comment.toList.getLast?.all (Text.isBlank · = false) = true)
    ⟨fun ⟨hne, hvalue, hcomment, hend⟩ =>
        ⟨hne, by simpa using hvalue, hcomment, by simpa [Option.all_eq_true] using hend⟩,
      fun h => ⟨h.value_ne, by simpa using h.value, h.comment,
        by simpa [Option.all_eq_true] using h.comment_end⟩⟩

instance : (item : Item) → Decidable item.FitsLine
  | .rule r => inferInstanceAs (Decidable r.FitsLine)
  | .comment text =>
    decidable_of_iff
      (text.toList.head? = some '#' ∧ '\n' ∉ text.toList ∧
        text.toList.getLast?.all (Text.isBlank · = false) = true)
      ⟨fun ⟨hsign, hfeed, hend⟩ => ⟨hsign, hfeed, by simpa [Option.all_eq_true] using hend⟩,
        fun ⟨hsign, hfeed, hend⟩ => ⟨hsign, hfeed, by simpa [Option.all_eq_true] using hend⟩⟩

def Item.toLine : Item → Line
  | .rule r => .rule r
  | .comment text => .comment text

namespace Rule

theorem behindValue_eq_nil_or (rule : Rule) :
    rule.behindValue = [] ∨ rule.behindValue.head? = some ' ' := by
  unfold behindValue
  split
  · exact .inl rfl
  · exact .inr rfl

theorem drop_behindValue (rule : Rule) : rule.behindValue.drop 1 = rule.comment.toList := by
  unfold behindValue
  split
  · rename_i hempty
    rw [hempty]
    rfl
  · rfl

end Rule

namespace Item

variable {item : Item}

theorem FitsLine.notMem_line (h : item.FitsLine) : '\n' ∉ item.line := by
  cases item with
  | comment text => exact h.2.1
  | rule r =>
    have hmark : '\n' ∉ r.kind.mark := by cases r.kind <;> decide
    have hvalue : '\n' ∉ r.value.toList := fun hmem => by cases h.value '\n' hmem
    have hcomment := h.comment
    rw [line, Rule.behindValue]
    split <;> simp [hmark, hvalue, hcomment]

theorem FitsLine.head?_line (h : item.FitsLine) :
    ∃ c, item.line.head? = some c ∧ Text.isBlank c = false := by
  cases item with
  | comment text => exact ⟨'#', h.1, by decide⟩
  | rule r =>
    obtain ⟨c, mark, hmark, hc⟩ : ∃ c mark, r.kind.mark = c :: mark ∧ Text.isBlank c = false := by
      cases r.kind <;> exact ⟨_, _, rfl, by decide⟩
    refine ⟨c, ?_, hc⟩
    rw [line, hmark, List.append_assoc]
    rfl

theorem FitsLine.getLast?_line (h : item.FitsLine) :
    ∀ c ∈ item.line.getLast?, Text.isBlank c = false := by
  have hlast : ∀ s : String, s ≠ "" → ∃ c, s.toList.getLast? = some c := by
    intro s hs
    exact ⟨_, List.getLast?_eq_some_getLast (by simpa using hs)⟩
  cases item with
  | comment text => exact h.2.2
  | rule r =>
    intro c hc
    rw [line, Rule.behindValue] at hc
    split at hc
    · obtain ⟨last, hvalue⟩ := hlast r.value h.value_ne
      rw [List.append_nil, List.getLast?_append, hvalue] at hc
      exact h.value c (List.mem_of_getLast? (hvalue.trans hc))
    · rename_i hne
      obtain ⟨last, hcomment⟩ := hlast r.comment hne
      rw [List.getLast?_append, List.getLast?_cons, hcomment] at hc
      exact h.comment_end c (hcomment.trans hc)

/-- The mark ends where the value begins, and the value at the first space, so the line of an item
is read as that item. -/
theorem FitsLine.readTrimmed_line (h : item.FitsLine) :
    Line.readTrimmed item.line = item.toLine := by
  cases item with
  | comment text =>
    obtain ⟨more, hmore⟩ := List.head?_eq_some_iff.mp h.1
    rw [line, hmore, Line.readTrimmed, ← hmore, String.ofList_toList]
    rfl
  | rule r =>
    have hmarked : ∀ more, Line.readTrimmed (r.kind.mark ++ more) =
          Line.readRule (r.kind.mark ++ more) ∧
        Line.kindOf (r.kind.mark ++ more) = some r.kind := by
      intro more
      cases r.kind <;> exact ⟨rfl, rfl⟩
    have hspace : ' ' ∉ r.kind.mark ++ r.value.toList := by
      have hmark : ' ' ∉ r.kind.mark := by cases r.kind <;> decide
      have hvalue : ' ' ∉ r.value.toList := fun hmem => by cases h.value ' ' hmem
      simp [hmark, hvalue]
    obtain ⟨htoken, hbehind⟩ := Text.cut_append hspace r.behindValue_eq_nil_or
    have hvalue : r.value.toList.isEmpty = false := by simpa using h.value_ne
    obtain ⟨hread, hkind⟩ := hmarked (r.value.toList ++ r.behindValue)
    rw [← List.append_assoc] at hread hkind
    rw [line, hread, Line.readRule, hkind, Line.token, htoken, Line.behindToken, hbehind,
      r.drop_behindValue]
    simp only [Option.map_some, Option.getD_some, List.drop_left, hvalue, String.ofList_toList]
    rfl

theorem FitsLine.read_line (h : item.FitsLine) {gap tail : List Char} (hg : Text.IsGap gap)
    (ht : Text.IsGap tail) : Line.read (gap ++ item.line ++ tail) = item.toLine := by
  obtain ⟨c, hhead, hc⟩ := h.head?_line
  have hne : item.line ≠ [] := by
    intro hempty
    rw [hempty] at hhead
    cases hhead
  have hfirst : ∀ other ∈ item.line.head?, Text.isBlank other = false := by
    intro other ho
    rw [← Option.some.inj (hhead.symm.trans ho)]
    exact hc
  rw [Line.read, Text.trim_append (fun c hc => (hg c hc).1) (fun c hc => (ht c hc).1) hne hfirst
    h.getLast?_line]
  exact h.readTrimmed_line

theorem expand_toLine (archive : Archive) (path : List String) (item : Item) (lines : List Line) :
    expand archive "" path (item.toLine :: lines) =
      (expand archive "" path lines).map (item :: ·) := by
  cases item with
  | comment text => exact expand_comment archive "" path text lines
  | rule r => exact expand_rule_of_selected archive "" path r.isSelectedBy_empty lines

end Item

namespace Text

theorem IsGap.append {s t : List Char} (hs : IsGap s) (ht : IsGap t) : IsGap (s ++ t) := by
  intro c hc
  exact (List.mem_append.mp hc).elim (hs c) (ht c)

theorem IsGap.notMem {s : List Char} (h : IsGap s) : '\n' ∉ s := fun hmem => (h '\n' hmem).2 rfl

theorem IsLineEnd.exists_gap {s : List Char} (h : IsLineEnd s) :
    ∃ gap, IsGap gap ∧ s = gap ++ ['\n'] := by
  rcases h with rfl | rfl
  · exact ⟨[], by decide, rfl⟩
  · exact ⟨['\r'], by decide, rfl⟩

end Text

theorem Line.read_of_isGap {gap : List Char} (h : Text.IsGap gap) : Line.read gap = .nothing := by
  rw [Line.read, Text.trim_of_forall fun c hc => (h c hc).1]
  rfl

theorem Written.expand_eq {items : List Item} {text : List Char} (h : Written items text)
    (hfit : ∀ item ∈ items, item.FitsLine) (archive : Archive) (path : List String) :
    expand archive "" path ((Text.splitOn '\n' text).map Line.read) = .done items := by
  -- From the last line on: each line adds its item or nothing. The end of a line may bring a
  -- carriage return, which counts as a gap.
  induction h with
  | blank gap hg =>
    rw [Text.splitOn_of_notMem hg.notMem, List.map_singleton, Line.read_of_isGap hg, expand_nothing,
      expand_nil]
  | last gap hg item =>
    have hitem := hfit item List.mem_cons_self
    have hread := hitem.read_line hg (show Text.IsGap [] by decide)
    rw [List.append_nil] at hread
    have hfeed : '\n' ∉ gap ++ item.line := by simp [hg.notMem, hitem.notMem_line]
    rw [Text.splitOn_of_notMem hfeed, List.map_singleton, hread, Item.expand_toLine, expand_nil]
    rfl
  | @skip items gap feed text hg hf _ ih =>
    obtain ⟨more, hmore, rfl⟩ := hf.exists_gap
    have hline : gap ++ (more ++ ['\n']) ++ text = (gap ++ more) ++ '\n' :: text := by simp
    rw [hline, Text.splitOn_append_cons (hg.append hmore).notMem, List.map_cons,
      Line.read_of_isGap (hg.append hmore), expand_nothing]
    exact ih hfit
  | @next items gap feed text hg item hf _ ih =>
    obtain ⟨more, hmore, rfl⟩ := hf.exists_gap
    have hitem := hfit item List.mem_cons_self
    have hline : gap ++ item.line ++ (more ++ ['\n']) ++ text =
        (gap ++ item.line ++ more) ++ '\n' :: text := by simp
    have hfeed : '\n' ∉ gap ++ item.line ++ more := by
      simp [hg.notMem, hitem.notMem_line, hmore.notMem]
    rw [hline, Text.splitOn_append_cons hfeed, List.map_cons, hitem.read_line hg hmore,
      Item.expand_toLine, ih fun other ho => hfit other (List.mem_cons_of_mem item ho)]
    rfl

/-- Reading undoes writing: a text in which items are written expands to these very items, and no
list is read for it. -/
theorem expandText_written (archive : Archive) {items : List Item} {text : String}
    (h : Written items text.toList) (hfit : ∀ item ∈ items, item.FitsLine) :
    (expandText archive "" text).result = .ok items ∧ (expandText archive "" text).reads = [] := by
  have hdone : expandText archive "" text = .done items := h.expand_eq hfit archive []
  rw [hdone]
  exact ⟨rfl, rfl⟩

/-- Values that look like marks, inclusions and comments, and a text behind one of them that begins
with blanks. -/
def lookalikes : List Item :=
  [.rule ⟨.exact, "include:domain:x", ""⟩, .comment "# include:y \r full:z",
    .rule ⟨.suffix, "#regexp:", "  @a  # @b"⟩]

theorem expandText_written_lookalikes :
    (∀ item ∈ lookalikes, item.FitsLine) ∧
      (expandText ⟨[]⟩ "" ("\t\r\n full:include:domain:x\r\n\n# include:y \r full:z\n" ++
        "  domain:#regexp:   @a  # @b")).result = .ok lookalikes := by
  have hfit : ∀ item ∈ lookalikes, item.FitsLine := by decide
  have hlast : Written [.rule ⟨.suffix, "#regexp:", "  @a  # @b"⟩]
      "  domain:#regexp:   @a  # @b".toList := .last [' ', ' '] (by decide) _
  have hcomment := Written.next [] (by decide) (.comment "# include:y \r full:z") (.inl rfl) hlast
  have hfirst := Written.next [' '] (by decide) (.rule ⟨.exact, "include:domain:x", ""⟩)
    (.inr rfl) (.skip [] (by decide) (.inl rfl) hcomment)
  exact ⟨hfit, (expandText_written ⟨[]⟩ (.skip ['\t'] (by decide) (.inr rfl) hfirst) hfit).1⟩

end DomainRules
