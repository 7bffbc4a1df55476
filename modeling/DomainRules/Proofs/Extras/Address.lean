import DomainRules.Proofs.Regex.Anchored
import DomainRules.Proofs.Text.Ascii
import DomainRules.Proofs.Text.Lines
import DomainRules.Regex.Loose
import DomainRules.Site

namespace DomainRules

open Text

namespace Extras

def IsLetterOrDigit (c : Char) : Prop :=
  ('a' ≤ c ∧ c ≤ 'z') ∨ ('A' ≤ c ∧ c ≤ 'Z') ∨ ('0' ≤ c ∧ c ≤ '9')

/-- A segment of letters, digits, dots, underscores and hyphens that begins with a letter or a
digit, all of ASCII. -/
structure IsSegment (s : List Char) : Prop where
  head : ∃ c ∈ s.head?, IsLetterOrDigit c
  signs : ∀ c ∈ s, IsLetterOrDigit c ∨ c ∈ ['.', '_', '-']

/-- Whether the expression for segments, which ignores case, is found in a text. -/
def IsMatched (s : List Char) : Prop :=
  ∃ r, Regex.ofLooseUnits (units "^[a-z0-9][a-z0-9._-]*$".toList) = .ok r ∧
    (r.search? (units s)).isSome = true

/-- The address is that of a list beneath the base: the base without the slashes at its end, and
behind it the category and the name as one segment each. No segment is a step up or in place, and
none holds a separator of paths or begins a query, a fragment or an escape. -/
structure IsBeneath (base category name address : List Char) : Prop where
  segments : IsSegment category ∧ IsSegment name
  steps : ∀ s ∈ [category, name], s ≠ ['.'] ∧ s ≠ ['.', '.']
  signs : ∀ s ∈ [category, name], ∀ c ∈ ['/', '\\', '?', '#', '%'], c ∉ s
  place : ∃ root slashes, base = root ++ slashes ∧ (∀ c ∈ slashes, c = '/') ∧
    root.getLast? ≠ some '/' ∧
    address = root ++ '/' :: category ++ '/' :: name ++ ".list".toList ∧
    splitOn '/' address = splitOn '/' root ++ [category, name ++ ".list".toList]

/-- The requests that are sent, each with its method and its address. -/
def upstream (notices : List Notice) : List (String × String) :=
  notices.filterMap fun
    | .sent method url => some (method, url)
    | _ => none

section Signs

variable {c : Char} {s : List Char}

theorem isAlphanumeric_iff : isAlphanumeric c = true ↔ IsLetterOrDigit c := by
  unfold isAlphanumeric IsLetterOrDigit Char.isAlphanum Char.isAlpha Char.isUpper Char.isLower
    Char.isDigit
  simp only [Bool.or_eq_true, Bool.and_eq_true, decide_eq_true_iff, Char.le_def, ge_iff_le]
  constructor
  · rintro ((hupper | hlower) | hdigit)
    · exact .inr (.inl hupper)
    · exact .inl hlower
    · exact .inr (.inr hdigit)
  · rintro (hlower | hupper | hdigit)
    · exact .inl (.inr hlower)
    · exact .inl (.inl hupper)
    · exact .inr hdigit

def isPlainSign (c : Char) : Bool := isAlphanumeric c || c = '.' || c = '_' || c = '-'

theorem isPlainName_cons (c : Char) (rest : List Char) :
    isPlainName (c :: rest) = (isAlphanumeric c && rest.all isPlainSign) := rfl

theorem isPlainSign_iff : isPlainSign c = true ↔ IsLetterOrDigit c ∨ c ∈ ['.', '_', '-'] := by
  unfold isPlainSign
  simp only [Bool.or_eq_true, isAlphanumeric_iff, decide_eq_true_iff, List.mem_cons,
    List.not_mem_nil, or_false, or_assoc]

theorem isPlainName_iff : isPlainName s = true ↔ IsSegment s := by
  cases s with
  | nil =>
    refine iff_of_false Bool.false_ne_true ?_
    rintro ⟨⟨c, hc, -⟩, -⟩
    cases hc
  | cons c rest =>
    rw [isPlainName_cons, Bool.and_eq_true, isAlphanumeric_iff, List.all_eq_true]
    constructor
    · rintro ⟨hfirst, hrest⟩
      refine ⟨⟨c, rfl, hfirst⟩, ?_⟩
      intro d hd
      rcases List.mem_cons.mp hd with rfl | hd
      · exact .inl hfirst
      · exact isPlainSign_iff.mp (hrest d hd)
    · rintro ⟨⟨d, hd, hfirst⟩, hsigns⟩
      cases hd
      refine ⟨hfirst, fun d hd => ?_⟩
      exact isPlainSign_iff.mpr (hsigns d (List.mem_cons_of_mem c hd))

theorem IsSegment.notMem (h : IsSegment s) (hc : isPlainSign c = false) : c ∉ s := by
  intro hmem
  have hsign : isPlainSign c = true := isPlainSign_iff.mpr (h.signs c hmem)
  rw [hc] at hsign
  cases hsign

/-- A segment leads neither up nor to where it stands. -/
theorem IsSegment.ne_of_dot (h : IsSegment s) (rest : List Char) : s ≠ '.' :: rest := by
  rintro rfl
  obtain ⟨c, hc, hletter⟩ := h.head
  cases hc
  have hdot : isAlphanumeric '.' = false := by decide
  rw [isAlphanumeric_iff.mpr hletter] at hdot
  cases hdot

end Signs

section Expression

def firstMembers : List ClassMember := [.range 0x61 0x7A, .range 0x30 0x39]

def laterMembers : List ClassMember :=
  firstMembers ++ [.unit 0x2E, .unit 0x5F, .unit 0x2D]

theorem ofLooseUnits_segment : Regex.ofLooseUnits (units "^[a-z0-9][a-z0-9._-]*$".toList) =
    .ok (Regex.anchored firstMembers laterMembers) := rfl

theorem toNat_lt_of_isPlainSign {c : Char} (h : isPlainSign c = true) : c.toNat < 0x80 := by
  have hle : ∀ d : Char, c ≤ d → c.toNat ≤ d.toNat := fun d hd => UInt32.le_iff_toNat_le.mp hd
  rcases isPlainSign_iff.mp h with (⟨-, hz⟩ | ⟨-, hz⟩ | ⟨-, hz⟩) | hmark
  · exact Nat.lt_of_le_of_lt (hle _ hz) (by decide)
  · exact Nat.lt_of_le_of_lt (hle _ hz) (by decide)
  · exact Nat.lt_of_le_of_lt (hle _ hz) (by decide)
  · rcases List.mem_cons.mp hmark with rfl | hmark
    · decide
    rcases List.mem_cons.mp hmark with rfl | hmark
    · decide
    · rw [List.mem_singleton.mp hmark]
      decide

def isAsciiMember : ClassMember → Bool
  | .unit u => u.toNat < 0x80
  | .range _ last => last.toNat < 0x80
  | .escape _ _ => false

theorem toNat_lt_of_contains {member : ClassMember} (hmember : isAsciiMember member = true)
    {u : UInt16} (hu : member.contains u = true) : u.toNat < 0x80 := by
  cases member with
  | unit v =>
    have heq : u = v := beq_iff_eq.mp hu
    have hv : v.toNat < 0x80 := of_decide_eq_true hmember
    rwa [heq]
  | range first last =>
    have hle : u ≤ last := of_decide_eq_true (Bool.and_eq_true_iff.mp hu).2
    have hlast : last.toNat < 0x80 := of_decide_eq_true hmember
    exact Nat.lt_of_le_of_lt (UInt16.le_iff_toNat_le.mp hle) hlast
  | escape kind negated => cases hmember

theorem toNat_lt_of_admitsAnyCase {members : List ClassMember}
    (hmembers : ∀ member ∈ members, isAsciiMember member = true) {u : UInt16}
    (hu : Regex.admitsAnyCase members u = true) : u.toNat < 0x80 := by
  obtain ⟨v, hv, hany⟩ := List.any_eq_true.mp hu
  obtain ⟨member, hmember, hcontains⟩ := List.any_eq_true.mp hany
  apply toNat_lt_of_mem_casesOf hv
  exact toNat_lt_of_contains (hmembers member hmember) hcontains

theorem areSameSigns_first :
    AreSameSigns (Regex.admitsAnyCase firstMembers) isAlphanumeric where
  within := by decide +kernel
  unit _ := toNat_lt_of_admitsAnyCase (by decide)
  char c hc := toNat_lt_of_isPlainSign (isPlainSign_iff.mpr (.inl (isAlphanumeric_iff.mp hc)))

theorem areSameSigns_later : AreSameSigns (Regex.admitsAnyCase laterMembers) isPlainSign where
  within := by decide +kernel
  unit _ := toNat_lt_of_admitsAnyCase (by decide)
  char _ := toNat_lt_of_isPlainSign

theorem isRunOf_units (s : List Char) :
    Regex.isRunOf firstMembers laterMembers (units s) = isPlainName s := by
  cases s with
  | nil => rfl
  | cons c rest =>
    have hunits : units (c :: rest) = unitsOfChar c ++ units rest := rfl
    have hrest : (units rest).all (Regex.admitsAnyCase laterMembers) = rest.all isPlainSign :=
      areSameSigns_later.all_units rest
    rw [hunits, isPlainName_cons, ← hrest]
    by_cases hc : c.toNat < 0x80
    · rw [unitsOfChar_of_lt hc, List.singleton_append, Regex.isRunOf,
        areSameSigns_first.within _ hc, Char.ofNat_toNat]
    · -- A character beyond ASCII begins with a unit beyond it.
      obtain ⟨u, more, hmore⟩ := List.exists_cons_of_ne_nil (unitsOfChar_ne_nil c)
      have hu : u ∈ unitsOfChar c := hmore ▸ List.mem_cons_self
      have hbeyond : 0x80 ≤ u.toNat := le_toNat_of_mem_unitsOfChar (Nat.le_of_not_lt hc) hu
      have hunit : Regex.admitsAnyCase firstMembers u = false :=
        Bool.eq_false_iff.mpr fun h => absurd (areSameSigns_first.unit u h) (by omega)
      have hchar : isAlphanumeric c = false :=
        Bool.eq_false_iff.mpr fun h => hc (areSameSigns_first.char c h)
      rw [hmore, List.cons_append, Regex.isRunOf, hunit, hchar, Bool.false_and, Bool.false_and]

/-- The expression is found in a text exactly if the text is a segment. -/
theorem isMatched_iff {s : List Char} : IsMatched s ↔ IsSegment s := by
  rw [← isPlainName_iff, ← isRunOf_units, ← Regex.isSome_search?_anchored]
  constructor
  · rintro ⟨r, hr, hfound⟩
    cases ofLooseUnits_segment.symm.trans hr
    exact hfound
  · intro hfound
    exact ⟨_, ofLooseUnits_segment, hfound⟩

end Expression

section Page

variable {base category name : String}

theorem path?_eq_none (h : ¬ (IsSegment (trim category.toList) ∧ IsSegment (trim name.toList))) :
    path? category name = none := by
  unfold path?
  dsimp only
  rw [if_neg]
  rwa [Bool.and_eq_true, isPlainName_iff, isPlainName_iff]

theorem path?_eq_some (hcategory : IsSegment (trim category.toList))
    (hname : IsSegment (trim name.toList)) :
    path? category name = some (String.ofList (trim category.toList ++ '/' :: trim name.toList)) := by
  unfold path?
  dsimp only
  rw [if_pos]
  rw [isPlainName_iff.mpr hcategory, isPlainName_iff.mpr hname]
  rfl

theorem isBeneath_address {category name : List Char} (base : String)
    (hcategory : IsSegment category) (hname : IsSegment name) :
    IsBeneath base.toList category name
      (address base (String.ofList (category ++ '/' :: name))).toList where
  segments := ⟨hcategory, hname⟩
  steps := by
    have hsteps : ∀ s, IsSegment s → s ≠ ['.'] ∧ s ≠ ['.', '.'] :=
      fun s h => ⟨h.ne_of_dot [], h.ne_of_dot ['.']⟩
    simpa using ⟨hsteps category hcategory, hsteps name hname⟩
  signs := by
    have hall : (['/', '\\', '?', '#', '%'].all fun c => !isPlainSign c) = true := rfl
    intro s hs c hc
    have hsegment : IsSegment s := by
      rcases List.mem_cons.mp hs with rfl | hs
      · exact hcategory
      · rwa [List.mem_singleton.mp hs]
    have hsign : isPlainSign c = false := by simpa using List.all_eq_true.mp hall c hc
    exact hsegment.notMem hsign
  place := by
    -- No segment holds a slash, so cutting the address at its slashes gives back the two.
    obtain ⟨slashes, hbase, hslashes, hlast⟩ := exists_slashes base.toList
    refine ⟨dropTrailingSlashes base.toList, slashes, hbase, hslashes, hlast, ?_⟩
    have haddress : (address base (String.ofList (category ++ '/' :: name))).toList =
        dropTrailingSlashes base.toList ++ '/' :: (category ++ '/' :: (name ++ ".list".toList)) := by
      have hslash : "/".toList = ['/'] := rfl
      simp only [address, String.toList_append, String.toList_ofList, hslash, List.append_assoc,
        List.cons_append, List.nil_append]
    have hslash : isPlainSign '/' = false := by decide
    have hlist : '/' ∉ name ++ ".list".toList := by
      rw [List.mem_append]
      rintro (hmem | hmem)
      · exact hname.notMem hslash hmem
      · revert hmem
        decide
    rw [haddress]
    constructor
    · simp only [List.append_assoc, List.cons_append]
    · rw [splitOn_eq, List.splitOn_append_cons_self, ← splitOn_eq, ← splitOn_eq,
        splitOn_append_cons (hcategory.notMem hslash), splitOn_of_notMem hlist]

theorem status_serve_ne (path : String) (answer : Answer) :
    (serve path answer).1.status ≠ 400 := by
  have hstatus : (serve path answer).1.status ∈ [200, 404, 502] := by
    unfold serve
    split
    · decide
    · split
      · simp [Http.Page.message]
      · split <;> simp [Http.Page.message, Http.Page.document]
  intro h
  rw [h] at hstatus
  revert hstatus
  decide

theorem upstream_cons_sent (method url : String) (notices : List Notice) :
    upstream (.sent method url :: notices) = (method, url) :: upstream notices := rfl

theorem upstream_serve (path : String) (answer : Answer) : upstream (serve path answer).2 = [] := by
  unfold serve
  split
  · rfl
  · split
    · rfl
    · split <;> rfl

end Page

/-- A client cannot steer a request for a hand-kept list beyond the base. If the expression is not
found in one of the trimmed parameters, the client is refused and no request is sent. Otherwise one
request is sent, for an address that is beneath the base. -/
theorem upstream_beneath (site : Site) (moment : Moment) (incoming : Http.Incoming)
    (category name : String) :
    let served := site.serve moment incoming .extra [category, name]
    let sent := upstream (served.work ++ served.notices)
    (¬ (IsMatched (trim category.toList) ∧ IsMatched (trim name.toList)) ∧
      served.outgoing = .page (.message 400 "Invalid list path") ∧ sent = []) ∨
    ∃ address, served.outgoing.status ≠ 400 ∧ sent = [("GET", address)] ∧
      IsBeneath site.extrasBase.toList (trim category.toList) (trim name.toList)
        address.toList := by
  have hpage : site.serve moment incoming .extra [category, name] =
      { site
        outgoing := .page (page site.extrasBase category name moment.extra).1
        notices := (page site.extrasBase category name moment.extra).2 } := rfl
  dsimp only
  rw [hpage, isMatched_iff, isMatched_iff, List.nil_append]
  by_cases h : IsSegment (trim category.toList) ∧ IsSegment (trim name.toList)
  · -- Both are segments, and the address is made of what was looked at.
    right
    let path := String.ofList (trim category.toList ++ '/' :: trim name.toList)
    have hserve : page site.extrasBase category name moment.extra =
        ((serve path moment.extra).1,
          .sent "GET" (address site.extrasBase path) :: (serve path moment.extra).2) := by
      rw [page, path?_eq_some h.1 h.2]
    have hsent : upstream (page site.extrasBase category name moment.extra).2 =
        [("GET", address site.extrasBase path)] := by
      rw [hserve, upstream_cons_sent, upstream_serve]
    refine ⟨address site.extrasBase path, ?_, hsent, isBeneath_address site.extrasBase h.1 h.2⟩
    rw [hserve]
    exact status_serve_ne path moment.extra
  · -- One is no segment, so the page refuses before it asks.
    left
    have hrefused : page site.extrasBase category name moment.extra =
        (.message 400 "Invalid list path", []) := by
      rw [page, path?_eq_none h]
    rw [hrefused]
    exact ⟨h, rfl, rfl⟩

end Extras

end DomainRules
