import DomainRules.Proofs.Value.Quoted
import Mathlib.Data.List.DropRight

/-!
The members of an object as they stand in its text. A reader of values keeps the last value of each
name only; here a name that comes twice is seen twice.
-/
namespace DomainRules.Value

open Text

def readMember? (fuel : Nat) (input : List Char) : Option ((String × Value) × List Char) :=
  match skip input with
  | '"' :: rest => do
    let (key, rest) ← quoted? {} rest
    match skip rest with
    | ':' :: rest =>
      let (value, rest) ← read? fuel rest
      return ((key, value), rest)
    | _ => none
  | _ => none

def readMembers? : Nat → List Char → Option (List (String × Value) × List Char)
  | 0, _ => none
  | fuel + 1, input => do
    let (member, rest) ← readMember? fuel input
    match skip rest with
    | ',' :: rest =>
      let (members, rest) ← readMembers? fuel rest
      return (member :: members, rest)
    | '\x7d' :: rest => return ([member], rest)
    | _ => none

def readObject? (fuel : Nat) (input : List Char) : Option (List (String × Value) × List Char) :=
  match skip input with
  | '\x7d' :: rest => some ([], rest)
  | front => readMembers? fuel front

/-- The members of the object that a text spells; nothing but blanks may be left over. -/
def members? (s : List Char) : Option (List (String × Value)) :=
  match skip s with
  | '\x7b' :: rest =>
    (readObject? (2 * s.length + 1) rest).bind fun read =>
      if (skip read.2).isEmpty then some read.1 else none
  | _ => none

/-- The fields that are left of some members, behind those that are there already. -/
def merged (fields members : List (String × Value)) : List (String × Value) :=
  members.foldl (fun fields member => setField member.1 member.2 fields) fields

theorem readFields?_succ (fuel : Nat) (fields : List (String × Value)) (input : List Char) :
    readFields? (fuel + 1) fields input = (readMember? fuel input).bind fun read =>
      match skip read.2 with
      | ',' :: rest => readFields? fuel (setField read.1.1 read.1.2 fields) rest
      | '\x7d' :: rest => some (setField read.1.1 read.1.2 fields, rest)
      | _ => none := by
  rw [readFields?, readMember?]
  cases hfront : skip input with
  | nil => rfl
  | cons c front =>
    by_cases hc : c = '"'
    · rw [hc]
      cases hkey : quoted? {} front with
      | none => simp only [hkey, Option.bind_eq_bind, Option.bind_none]
      | some read =>
        simp only [hkey, Option.bind_eq_bind, Option.bind_some]
        cases hcolon : skip read.2 with
        | nil => rfl
        | cons d rest =>
          by_cases hd : d = ':'
          · rw [hd]
            cases hvalue : read? fuel rest <;> simp only [hvalue] <;> rfl
          · simp [hd]
    · simp [hc]

theorem readFields?_eq (fuel : Nat) (fields : List (String × Value)) (input : List Char) :
    readFields? fuel fields input =
      (readMembers? fuel input).map fun read => (merged fields read.1, read.2) := by
  induction fuel generalizing fields input with
  | zero =>
    rw [readFields?, readMembers?]
    rfl
  | succ fuel ih =>
    rw [readFields?_succ, readMembers?]
    cases hmember : readMember? fuel input with
    | none => rfl
    | some read =>
      simp only [Option.bind_eq_bind, Option.bind_some]
      split
      · rename_i rest hcomma
        rw [ih]
        cases readMembers? fuel rest <;> rfl
      · rfl
      · rfl

theorem setField_of_notMem {key : String} {fields : List (String × Value)}
    (h : key ∉ fields.map Prod.fst) (value : Value) :
    setField key value fields = fields ++ [(key, value)] := by
  induction fields with
  | nil => rfl
  | cons field fields ih =>
    rw [List.map_cons, List.mem_cons] at h
    obtain ⟨hne, hrest⟩ := not_or.mp h
    rw [setField, if_neg hne, ih hrest]
    rfl

theorem merged_of_nodup {fields members : List (String × Value)}
    (h : ((fields ++ members).map Prod.fst).Nodup) : merged fields members = fields ++ members := by
  induction members generalizing fields with
  | nil => rw [merged, List.foldl_nil, List.append_nil]
  | cons member members ih =>
    have hnew : member.1 ∉ fields.map Prod.fst := by
      rw [List.map_append, List.map_cons] at h
      intro hmem
      exact (List.nodup_append.mp h).2.2 member.1 hmem member.1 List.mem_cons_self rfl
    have hmoved : fields ++ member :: members = fields ++ [member] ++ members := by
      rw [List.append_assoc, List.singleton_append]
    rw [merged, List.foldl_cons, setField_of_notMem hnew, ← merged, hmoved]
    apply ih
    rw [← hmoved]
    exact h

section

variable {input other front : List Char}

theorem skip_skip (input : List Char) : skip (skip input) = skip input :=
  List.dropWhile_idempotent _ _

theorem readMember?_text {key value rest : List Char} (fuel : Nat)
    (h : skip input = quote key ++ ':' :: ' ' :: (quote value ++ rest)) :
    readMember? (fuel + 1) input =
      some ((String.ofList key, text (String.ofList value)), rest) := by
  have hvalue : read? (fuel + 1) (' ' :: (quote value ++ rest)) =
      some (text (String.ofList value), rest) := by
    have hskip : skip (' ' :: (quote value ++ rest)) =
        '"' :: (value.flatMap quoteChar ++ '"' :: rest) := by
      rw [quote_append]
      rfl
    rw [read?, hskip]
    simp only [quoted?_body, Option.map_some]
  rw [readMember?, h, quote_append]
  simp only [quoted?_body, Option.bind_eq_bind, Option.bind_some]
  have hcolon : skip (':' :: ' ' :: (quote value ++ rest)) = ':' :: ' ' :: (quote value ++ rest) :=
    rfl
  rw [hcolon]
  simp only [hvalue, Option.bind_some]
  rfl

theorem readMembers?_congr (h : skip input = skip other) (fuel : Nat) :
    readMembers? fuel input = readMembers? fuel other := by
  cases fuel with
  | zero => rfl
  | succ fuel =>
    have hmember : readMember? fuel input = readMember? fuel other := by
      rw [readMember?, h, readMember?]
    rw [readMembers?, hmember, readMembers?]

theorem readObject?_of_quote (h : skip input = '"' :: front) (fuel : Nat) :
    readObject? fuel input = readMembers? fuel input := by
  have hfront : skip ('"' :: front) = skip input := by
    rw [← h, skip_skip]
  rw [readObject?, h]
  exact readMembers?_congr hfront fuel

theorem read?_object (h : skip input = '\x7b' :: front) (fuel : Nat) :
    read? (fuel + 1) input =
      (readObject? fuel front).map fun read => (record (merged [] read.1), read.2) := by
  rw [read?, h, readObject?]
  simp only
  cases hbehind : skip front with
  | nil => simp [readFields?_eq, Function.comp_def]
  | cons c rest =>
    by_cases hc : c = '\x7d'
    · rw [hc]
      rfl
    · simp [hc, readFields?_eq, Function.comp_def]

theorem members?_object (h : skip input = '\x7b' :: front) :
    members? input = (readObject? (2 * input.length + 1) front).bind fun read =>
      if (skip read.2).isEmpty then some read.1 else none := by
  rw [members?, h]
  rfl

theorem exists_of_read?_record {fuel : Nat} {fields : List (String × Value)} {rest : List Char}
    (h : read? fuel input = some (record fields, rest)) : ∃ front, skip input = '\x7b' :: front := by
  cases fuel with
  | zero => simp [read?] at h
  | succ fuel =>
    rw [read?] at h
    split at h
    · simp at h
    · split at h <;> simp at h
    · rename_i front hfront
      exact ⟨front, hfront⟩
    · simp at h
    · simp at h
    · simp at h
    · simp at h

end

/-- A text spells a record exactly if it spells an object, and the record keeps the last value of
each name. -/
theorem ofJson?_eq_record_iff {s : List Char} {fields : List (String × Value)} :
    ofJson? s = some (record fields) ↔
      ∃ members, members? s = some members ∧ merged [] members = fields := by
  -- Both readers take the same text apart; only behind an opening brace can either find a record.
  by_cases hbrace : ∃ front, skip s = '\x7b' :: front
  · obtain ⟨front, hfront⟩ := hbrace
    rw [ofJson?, read?_object hfront, members?_object hfront]
    cases readObject? (2 * s.length + 1) front with
    | none => simp
    | some read =>
      simp only [Option.map_some, Option.bind_some]
      split <;> simp
  · have hmembers : members? s = none := by
      unfold members?
      split
      · rename_i front hfront
        exact absurd ⟨front, hfront⟩ hbrace
      · rfl
    rw [hmembers, ofJson?]
    constructor
    · intro h
      split at h
      · rename_i value rest hread
        split at h
        · rw [Option.some.inj h] at hread
          exact absurd (exists_of_read?_record hread) hbrace
        · cases h
      · cases h
    · rintro ⟨members, hnone, -⟩
      cases hnone

end DomainRules.Value
