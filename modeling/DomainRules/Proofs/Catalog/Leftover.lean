import DomainRules.Proofs.Catalog.Publication

namespace DomainRules.Catalog

inductive Event where
  | refresh (source : Except Failure Snapshot)
  /-- Somebody else changes what is at the path. -/
  | disturb (site : FileSlot.Site)

def undergo (catalog : Catalog) : Event → Catalog
  | .refresh source => (catalog.refresh source).1
  | .disturb site => { catalog with file := catalog.file.map fun slot => { slot with site } }

def course (catalog : Catalog) (events : List Event) : Catalog := events.foldl undergo catalog

/-- All that a refresh that fails can leave of a path, by what the supply of archives gave. -/
inductive Residue (base : String) (found : FileSlot) : Except Failure Snapshot → FileSlot → Prop where
  | unsupplied (failure : Failure) : Residue base found (.error failure) found
  | blocked (snapshot : Snapshot) (hsite : found.site = .blocked) :
    Residue base found (.ok snapshot) found
  | unmoved (snapshot : Snapshot) {draft : Option Bytes}
    (hsite : found.site = .made .directory draft) :
    Residue base found (.ok snapshot)
      { found with site := .made .directory (some (indexOf snapshot.archive base)) }

variable {catalog : Catalog} {base : String} {found left : FileSlot}
  {source : Except Failure Snapshot} {failure : Failure}

theorem residue_of_refresh_error (hbase : catalog.base = some base)
    (hfile : catalog.file = some found)
    (hfailed : (catalog.refresh source).2.1 = .error failure) :
    ∃ left, (catalog.refresh source).1.file = some left ∧ Residue base found source left := by
  have hturn := turn_step hbase hfile ⟨FileSlot.replace, source⟩
  have houtcome : catalog.outcome ⟨FileSlot.replace, source⟩ = .error failure := hfailed
  have hnext : (catalog.refresh source).1 = catalog.step ⟨FileSlot.replace, source⟩ := rfl
  rw [houtcome] at hturn
  rw [hnext]
  generalize catalog.step ⟨FileSlot.replace, source⟩ = next at hturn
  generalize catalog.build? ⟨FileSlot.replace, source⟩ = build? at hturn
  cases hturn with
  | unsupplied hsource =>
    obtain rfl : source = .error failure := hsource
    exact ⟨found, hfile, .unsupplied failure⟩
  | @rebuilt snapshot next outcome hsource hreplace =>
    -- There was a snapshot, so it is the file that could not be replaced.
    obtain rfl : source = .ok snapshot := hsource
    have hstep := found.replace_step (indexOf snapshot.archive base)
    have hreplaced : found.replace (indexOf snapshot.archive base) = (next, .error failure) :=
      hreplace
    rw [hreplaced] at hstep
    cases hstep with
    | blocked hsite => exact ⟨found, rfl, .blocked snapshot hsite⟩
    | overwriting draft hsite => exact ⟨_, rfl, .unmoved snapshot hsite⟩

theorem Residue.path_eq (h : Residue base found source left) : left.path = found.path := by
  cases h <;> rfl

theorem Residue.entry_eq (h : Residue base found source left) : left.entry = found.entry := by
  cases h with
  | unsupplied failure => rfl
  | blocked snapshot hsite => rfl
  | unmoved snapshot hsite => rw [FileSlot.entry, FileSlot.entry, hsite]

/-- Only the draft of an index that could not be moved over a directory is new. -/
theorem Residue.draft_iff (h : Residue base found source left) :
    (left.hasDraft = true ∧ found.hasDraft = false) ↔
      found.site = .made .directory none ∧ ∃ snapshot, source = .ok snapshot := by
  cases h with
  | unsupplied failure =>
    apply iff_of_false
    · simp
    · rintro ⟨-, snapshot, hsource⟩
      cases hsource
  | blocked snapshot hsite =>
    apply iff_of_false
    · simp
    · rintro ⟨hmade, -⟩
      cases hsite.symm.trans hmade
  | @unmoved snapshot draft hsite =>
    -- A draft that was there before is replaced, and then there is no new one.
    cases draft with
    | none =>
      have hfound : found.hasDraft = false := by rw [FileSlot.hasDraft, hsite]
      exact iff_of_true ⟨rfl, hfound⟩ ⟨hsite, snapshot, rfl⟩
    | some data =>
      have hfound : found.hasDraft = true := by rw [FileSlot.hasDraft, hsite]
      apply iff_of_false
      · rintro ⟨-, hnone⟩
        cases hfound.symm.trans hnone
      · rintro ⟨hmade, -⟩
        cases hsite.symm.trans hmade

theorem Residue.eq_or (h : Residue base found source left) :
    left = found ∨ ∃ snapshot, source = .ok snapshot ∧ found.entry = .directory ∧
      left = { found with site := .made .directory (some (indexOf snapshot.archive base)) } := by
  cases h with
  | unsupplied failure => exact .inl rfl
  | blocked snapshot hsite => exact .inl rfl
  | unmoved snapshot hsite =>
    have hentry : found.entry = .directory := by rw [FileSlot.entry, hsite]
    exact .inr ⟨snapshot, rfl, hentry, rfl⟩

structure Located (base path : String) (catalog : Catalog) : Prop where
  base_eq : catalog.base = some base
  file_eq : ∃ slot, catalog.file = some slot ∧ slot.path = path

theorem Located.undergo {path : String} (h : Located base path catalog) (event : Event) :
    Located base path (catalog.undergo event) := by
  obtain ⟨slot, hslot, hpath⟩ := h.file_eq
  cases event with
  | refresh source =>
    have hturn := turn_step h.base_eq hslot ⟨FileSlot.replace, source⟩
    have hnext : catalog.undergo (.refresh source) = catalog.step ⟨FileSlot.replace, source⟩ := rfl
    rw [hnext]
    generalize catalog.step ⟨FileSlot.replace, source⟩ = next at hturn
    generalize catalog.outcome ⟨FileSlot.replace, source⟩ = outcome at hturn
    generalize catalog.build? ⟨FileSlot.replace, source⟩ = build? at hturn
    cases hturn with
    | unsupplied hsource => exact h
    | current hsource hcurrent => exact h
    | @rebuilt snapshot next outcome hsource hreplace =>
      refine ⟨h.base_eq, next, rfl, ?_⟩
      have hstep := slot.replace_step (indexOf snapshot.archive base)
      have hreplaced : slot.replace (indexOf snapshot.archive base) = (next, outcome) := hreplace
      rw [hreplaced] at hstep
      cases hstep <;> exact hpath
  | disturb site =>
    refine ⟨h.base_eq, { slot with site }, ?_, hpath⟩
    rw [Catalog.undergo, hslot, Option.map_some]

theorem Located.course {path : String} {events : List Event} (h : Located base path catalog) :
    Located base path (catalog.course events) := by
  induction events generalizing catalog with
  | nil => exact h
  | cons event events ih => exact ih (h.undergo event)

/-- Whatever happened before, a refresh that fails leaves what is at the path. It leaves a new draft
exactly if it had an index to write and a directory was at the path. -/
theorem draft_left_iff {address : String} {slot : FileSlot} {events : List Event}
    {source : Except Failure Snapshot} {failure : Failure} {before : Catalog}
    (hcourse : (ofAddress (some address) (some slot)).course events = before)
    (hfailed : (before.refresh source).2.1 = .error failure) :
    ∃ found left, before.file = some found ∧ (before.refresh source).1.file = some left ∧
      left.path = slot.path ∧ left.entry = found.entry ∧
      ((left.hasDraft = true ∧ found.hasDraft = false) ↔
        found.site = .made .directory none ∧ ∃ snapshot, source = .ok snapshot) ∧
      (left = found ∨ ∃ snapshot, source = .ok snapshot ∧ found.entry = .directory ∧
        left = { found with
          site := .made .directory (some (indexOf snapshot.archive (baseOf address))) }) := by
  have hopened : Located (baseOf address) slot.path (ofAddress (some address) (some slot)) :=
    ⟨rfl, slot, rfl, rfl⟩
  have hbefore : Located (baseOf address) slot.path before := hcourse ▸ hopened.course
  obtain ⟨found, hfound, hpath⟩ := hbefore.file_eq
  obtain ⟨left, hleft, hresidue⟩ := residue_of_refresh_error hbefore.base_eq hfound hfailed
  exact ⟨found, left, hfound, hleft, hresidue.path_eq.trans hpath, hresidue.entry_eq,
    hresidue.draft_iff, hresidue.eq_or⟩

/-- The index is written, and then a regular file takes the place of its directory. -/
def displaced : Catalog :=
  (ofAddress (some "https://rules.test") (some { path := "index.json" })).course
    [.refresh (.ok google), .disturb .blocked]

theorem draft_left_iff_displaced :
    (displaced.refresh (.ok google)).2.1 = .error (.disk .exists) ∧
      ∃ found left, displaced.file = some found ∧
        (displaced.refresh (.ok google)).1.file = some left ∧ left = found := by
  have hcourse : (ofAddress (some "https://rules.test") (some { path := "index.json" })).course
      [.refresh (.ok google), .disturb .blocked] = displaced := rfl
  have hfailed : (displaced.refresh (.ok google)).2.1 = .error (.disk .exists) := by rfl
  have hblocked : displaced.file = some { path := "index.json", site := .blocked } := by rfl
  obtain ⟨found, left, hfound, hleft, -, -, -, hsame⟩ := draft_left_iff hcourse hfailed
  refine ⟨hfailed, found, left, hfound, hleft, ?_⟩
  rcases hsame with hsame | ⟨snapshot, -, hdirectory, -⟩
  · exact hsame
  · rw [hblocked] at hfound
    obtain rfl := Option.some.inj hfound
    cases hdirectory

/-- A directory is at the path. The refresh reports that, and its draft stays. -/
theorem draft_left_by_refresh :
    let opened := ofAddress (some "https://rules.test")
      (some { path := "index.json", site := .made .directory none })
    (opened.refresh (.ok google)).2.1 =
        .error (.overwritesDirectory "index.json.tmp" "index.json") ∧
      opened.file.map FileSlot.hasDraft = some false ∧
      (opened.refresh (.ok google)).1.file.map FileSlot.hasDraft = some true := by
  refine ⟨rfl, rfl, rfl⟩

end DomainRules.Catalog
