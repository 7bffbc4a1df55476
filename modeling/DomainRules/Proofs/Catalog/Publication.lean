import DomainRules.Catalog
import DomainRules.Proofs.FileSlot
import DomainRules.Proofs.History
import Mathlib.Data.List.Induction

/-!
What a refresh leaves at the path of the index. The version counts as published before its index is
written, so a write that fails is not made good as long as anything is at the path.
-/
namespace DomainRules

namespace Catalog

/-- A refresh: how files are replaced while it lasts, and what the supply of archives gives. -/
structure Attempt where
  replace : FileSlot.Writer
  source : Except Failure Snapshot

/-- An index that was built: from which snapshot, what was at the path before, and whether the file
was replaced. -/
structure Build where
  snapshot : Snapshot
  found : FileSlot.Entry
  isSaved : Bool

def step (catalog : Catalog) (attempt : Attempt) : Catalog :=
  (refreshOn attempt.replace catalog attempt.source).1

def outcome (catalog : Catalog) (attempt : Attempt) : Except Failure Unit :=
  (refreshOn attempt.replace catalog attempt.source).2.1

def run (catalog : Catalog) (attempts : List Attempt) : Catalog := attempts.foldl step catalog

def indexOf (archive : Archive) (base : String) : Bytes := Text.utf8 (bodyOf archive base).toList

def baseOf (address : String) : String := String.ofList (Text.dropTrailingSlashes address.toList)

def build? (catalog : Catalog) (attempt : Attempt) : Option Build :=
  match catalog.base, catalog.file, attempt.source with
  | some base, some file, .ok snapshot =>
    if catalog.isCurrent snapshot.fingerprint then none
    else
      let outcome := (attempt.replace file (indexOf snapshot.archive base)).2
      some { snapshot, found := file.entry, isSaved := outcome.toBool }
  | _, _, _ => none

def builds (catalog : Catalog) (attempts : List Attempt) : List Build :=
  History.seen step build? catalog attempts

variable {catalog : Catalog} {base : String} {file : FileSlot} {attempt : Attempt}

/-- What a refresh can come to when there is a public address and a path: the catalog then, the
outcome and the index that was built. -/
inductive Turn (catalog : Catalog) (base : String) (file : FileSlot) (attempt : Attempt) :
    Catalog → Except Failure Unit → Option Build → Prop where
  | unsupplied {failure : Failure} (hsource : attempt.source = .error failure) :
    Turn catalog base file attempt catalog (.error failure) none
  | current {snapshot : Snapshot} (hsource : attempt.source = .ok snapshot)
    (hcurrent : catalog.isCurrent snapshot.fingerprint = true) :
    Turn catalog base file attempt catalog (.ok ()) none
  | rebuilt {snapshot : Snapshot} {next : FileSlot} {outcome : Except Failure Unit}
    (hsource : attempt.source = .ok snapshot)
    (hreplace : attempt.replace file (indexOf snapshot.archive base) = (next, outcome)) :
    Turn catalog base file attempt
      { catalog with
        edition := some ⟨snapshot.fingerprint, bodyOf snapshot.archive base⟩
        file := some next }
      outcome (some { snapshot, found := file.entry, isSaved := outcome.toBool })

theorem turn_step (hbase : catalog.base = some base) (hfile : catalog.file = some file)
    (attempt : Attempt) :
    Turn catalog base file attempt (catalog.step attempt) (catalog.outcome attempt)
      (catalog.build? attempt) := by
  cases hsource : attempt.source with
  | error failure =>
    have hrefresh : refreshOn attempt.replace catalog attempt.source =
        (catalog, .error failure, []) := by
      simp only [refreshOn, hbase, hsource]
    have hbuild : catalog.build? attempt = none := by
      simp only [build?, hbase, hfile, hsource]
    rw [step, outcome, hrefresh, hbuild]
    exact .unsupplied hsource
  | ok snapshot =>
    have hrefresh : refreshOn attempt.replace catalog attempt.source =
        publish attempt.replace catalog base snapshot := by
      simp only [refreshOn, hbase, hsource]
    -- Whether the version is current is decided before anything is written.
    cases hcurrent : catalog.isCurrent snapshot.fingerprint with
    | true =>
      have hbuild : catalog.build? attempt = none := by
        simp only [build?, hbase, hfile, hsource, hcurrent, if_true]
      rw [step, outcome, hrefresh, hbuild, publish, if_pos hcurrent]
      exact .current hsource hcurrent
    | false =>
      rcases hreplace : attempt.replace file (indexOf snapshot.archive base) with ⟨next, told⟩
      have hbuild : catalog.build? attempt =
          some { snapshot, found := file.entry, isSaved := told.toBool } := by
        simp [build?, hbase, hfile, hsource, hcurrent, hreplace]
      have hstale : ¬ catalog.isCurrent snapshot.fingerprint = true := by
        rw [hcurrent]
        decide
      rw [step, outcome, hrefresh, hbuild, publish, if_neg hstale, hfile]
      dsimp only
      rw [← indexOf, hreplace]
      cases told with
      | error failure => exact .rebuilt hsource hreplace
      | ok done => exact .rebuilt hsource hreplace

/-- What a build leaves at the path unless it is removed later. -/
def Build.left (base : String) (build : Build) : FileSlot.Entry :=
  if build.isSaved then .file (indexOf build.snapshot.archive base) else build.found

/-- What holds after some refreshes: the last build tells which version is taken for published, and
what is at the path if anything is. -/
structure Published (base : String) (builds : List Build) (catalog : Catalog) : Prop where
  base_eq : catalog.base = some base
  file_eq : ∃ file, catalog.file = some file ∧ ∀ build, builds.getLast? = some build →
    file.entry = build.left base ∨ file.entry = .nothing ∧ build.isSaved = false
  unbuilt : builds = [] → catalog.edition = none
  edition_eq : ∀ build, builds.getLast? = some build →
    catalog.edition.bind (·.fingerprint) = build.snapshot.fingerprint

theorem Published.opened (address : String) (slot : FileSlot) :
    Published (baseOf address) []
      (ofAddress (some address) (some slot)) where
  base_eq := rfl
  file_eq := ⟨slot, rfl, fun _ h => nomatch h⟩
  unbuilt _ := rfl
  edition_eq _ h := nomatch h

theorem Published.step {builds : List Build} (h : Published base builds catalog)
    (hlawful : FileSlot.Lawful attempt.replace) :
    Published base (builds ++ (catalog.build? attempt).toList) (catalog.step attempt) := by
  obtain ⟨file, hfile, hentry⟩ := h.file_eq
  have hturn := turn_step h.base_eq hfile attempt
  generalize catalog.step attempt = next at hturn
  generalize catalog.outcome attempt = outcome at hturn
  generalize catalog.build? attempt = build? at hturn
  -- Only a rebuild counts as a build, and it is the last one whether its write succeeds or not.
  cases hturn with
  | unsupplied hsource =>
    rw [Option.toList_none, List.append_nil]
    exact h
  | current hsource hcurrent =>
    rw [Option.toList_none, List.append_nil]
    exact h
  | @rebuilt snapshot next outcome hsource hreplace =>
    let build : Build := { snapshot, found := file.entry, isSaved := outcome.toBool }
    have hnext : (attempt.replace file (indexOf snapshot.archive base)).1 = next := by rw [hreplace]
    have hold : (attempt.replace file (indexOf snapshot.archive base)).2 = outcome := by
      rw [hreplace]
    have hleft : next.entry = build.left base ∨ next.entry = .nothing ∧ build.isSaved = false := by
      rw [← hnext]
      cases outcome with
      | ok done => exact .inl (hlawful.saves file _ hold)
      | error failure =>
        rcases hlawful.spares file _ failure hold with hsame | hgone
        · exact .inl hsame
        · exact .inr ⟨hgone, rfl⟩
    have hlast : ∀ other, (builds ++ [build]).getLast? = some other → other = build := by
      intro other ho
      rw [List.getLast?_concat] at ho
      exact (Option.some.inj ho).symm
    refine ⟨h.base_eq, ⟨next, rfl, ?_⟩, ?_, ?_⟩
    · intro other ho
      rw [hlast other ho]
      exact hleft
    · intro hnone
      exact absurd hnone (List.append_ne_nil_of_right_ne_nil builds (List.cons_ne_nil build []))
    · intro other ho
      rw [hlast other ho]
      rfl

theorem run_concat (catalog : Catalog) (attempts : List Attempt) (attempt : Attempt) :
    catalog.run (attempts ++ [attempt]) = (catalog.run attempts).step attempt := by
  rw [run, List.foldl_append]
  rfl

theorem builds_concat (catalog : Catalog) (attempts : List Attempt) (attempt : Attempt) :
    catalog.builds (attempts ++ [attempt]) =
      catalog.builds attempts ++ ((catalog.run attempts).build? attempt).toList :=
  History.seen_concat step build? catalog attempts attempt

theorem Published.run (address : String) (slot : FileSlot) {attempts : List Attempt}
    (hlawful : ∀ attempt ∈ attempts, FileSlot.Lawful attempt.replace) :
    Published (baseOf address)
      ((ofAddress (some address) (some slot)).builds attempts)
      ((ofAddress (some address) (some slot)).run attempts) := by
  induction attempts using List.reverseRecOn with
  | nil => exact .opened address slot
  | append_singleton attempts attempt ih =>
    rw [run_concat, builds_concat]
    apply Published.step
    · exact ih fun earlier he => hlawful earlier (List.mem_append_left _ he)
    · exact hlawful attempt (List.mem_append_right _ List.mem_cons_self)

theorem Published.entry_of_ok {builds : List Build} (h : Published base builds catalog)
    (hlawful : FileSlot.Lawful attempt.replace) {archive : Archive} {fingerprint : String}
    (hsource : attempt.source = .ok ⟨archive, some fingerprint⟩)
    (hok : catalog.outcome attempt = .ok ()) :
    ∃ build file, (builds ++ (catalog.build? attempt).toList).getLast? = some build ∧
      (catalog.step attempt).file = some file ∧ build.snapshot.fingerprint = some fingerprint ∧
      file.entry = build.left base := by
  obtain ⟨file, hfile, hentry⟩ := h.file_eq
  have hnext := h.step hlawful
  have hturn := turn_step h.base_eq hfile attempt
  generalize catalog.step attempt = next at hturn hnext
  generalize catalog.build? attempt = build? at hturn hnext
  rw [hok] at hturn
  cases hturn with
  | @current snapshot hgiven hcurrent =>
    -- Nothing is built, so the last build is an earlier one, and it was for the same version.
    have hsame : snapshot = ⟨archive, some fingerprint⟩ :=
      Except.ok.inj (hgiven.symm.trans hsource)
    rw [hsame, isCurrent, Bool.and_eq_true] at hcurrent
    obtain ⟨hversion, hthere⟩ := hcurrent
    have hversion : catalog.edition.bind (·.fingerprint) = some fingerprint :=
      of_decide_eq_true hversion
    have hthere : file.isPresent = true := by
      rw [hfile] at hthere
      exact hthere
    rw [Option.toList_none, List.append_nil]
    cases hlast : builds.getLast? with
    | none =>
      rw [h.unbuilt (List.getLast?_eq_none_iff.mp hlast)] at hversion
      cases hversion
    | some build =>
      refine ⟨build, file, rfl, hfile, (h.edition_eq build hlast).symm.trans hversion, ?_⟩
      -- A failed build may have left nothing, but then this refresh would have built again.
      rcases hentry build hlast with hleft | ⟨hnothing, -⟩
      · exact hleft
      · exact absurd hnothing (FileSlot.entry_ne_nothing hthere)
  | @rebuilt snapshot next _ hgiven hreplace =>
    have hsame : snapshot = ⟨archive, some fingerprint⟩ :=
      Except.ok.inj (hgiven.symm.trans hsource)
    obtain ⟨left, hleft, hentry⟩ := hnext.file_eq
    let build : Build := { snapshot, found := file.entry, isSaved := true }
    have hlast : (builds ++ [build]).getLast? = some build := List.getLast?_concat
    have hversion : build.snapshot.fingerprint = some fingerprint :=
      congrArg Snapshot.fingerprint hsame
    refine ⟨build, left, hlast, hleft, hversion, ?_⟩
    -- The outcome is that of the write, so a build that succeeds was saved.
    rcases hentry _ hlast with hleft | ⟨-, hunsaved⟩
    · exact hleft
    · cases hunsaved

/-- A refresh that succeeds has published the index of its archive exactly if the last build wrote
it, or if that failed and found it there already. Nothing is done about a write that failed. -/
theorem entry_eq_index_iff {address : String} {slot : FileSlot} {attempts : List Attempt}
    {last : Attempt} {archive : Archive} {fingerprint : String}
    (hlawful : ∀ attempt ∈ attempts ++ [last], FileSlot.Lawful attempt.replace)
    (hsource : last.source = .ok ⟨archive, some fingerprint⟩)
    (hok : ((ofAddress (some address) (some slot)).run attempts).outcome last = .ok ()) :
    ∃ build file,
      ((ofAddress (some address) (some slot)).builds (attempts ++ [last])).getLast? = some build ∧
      ((ofAddress (some address) (some slot)).run (attempts ++ [last])).file = some file ∧
      build.snapshot.fingerprint = some fingerprint ∧
      (file.entry = .file (indexOf archive (baseOf address)) ↔
        if build.isSaved then
          indexOf build.snapshot.archive (baseOf address) = indexOf archive (baseOf address)
        else build.found = .file (indexOf archive (baseOf address))) := by
  have hearlier := Published.run address slot fun attempt ha =>
    hlawful attempt (List.mem_append_left _ ha)
  have hreplace := hlawful last (List.mem_append_right _ List.mem_cons_self)
  obtain ⟨build, file, hlast, hfile, hversion, hentry⟩ := hearlier.entry_of_ok hreplace hsource hok
  refine ⟨build, file, ?_, ?_, hversion, ?_⟩
  · rw [builds_concat]
    exact hlast
  · rw [run_concat]
    exact hfile
  · rw [hentry, Build.left]
    split
    · rw [FileSlot.Entry.file.injEq]
    · rfl

def fullDisk : FileSlot.Writer := fun slot _ => (slot, .error (.reported .plain "ENOSPC"))

theorem lawful_fullDisk : FileSlot.Lawful fullDisk where
  saves _ _ h := nomatch h
  spares _ _ _ _ := .inl rfl

def google : Snapshot := ⟨⟨[("google", .text "domain:google.com")]⟩, some "v1"⟩

/-- Nothing was at the path, so the next refresh makes good for the one that failed. -/
theorem entry_eq_index_iff_afterFullDisk :
    ((ofAddress (some "https://rules.test") (some { path := "index.json" })).run
      [⟨fullDisk, .ok google⟩]).outcome ⟨FileSlot.replace, .ok google⟩ = .ok () ∧
    ∃ build file,
      ((ofAddress (some "https://rules.test") (some { path := "index.json" })).builds
        ([⟨fullDisk, .ok google⟩] ++ [⟨FileSlot.replace, .ok google⟩])).getLast? = some build ∧
      ((ofAddress (some "https://rules.test") (some { path := "index.json" })).run
        ([⟨fullDisk, .ok google⟩] ++ [⟨FileSlot.replace, .ok google⟩])).file = some file ∧
      build.snapshot.fingerprint = some "v1" ∧
      (file.entry = .file (indexOf google.archive (baseOf "https://rules.test")) ↔
        if build.isSaved then
          indexOf build.snapshot.archive (baseOf "https://rules.test") =
            indexOf google.archive (baseOf "https://rules.test")
        else build.found = .file (indexOf google.archive (baseOf "https://rules.test"))) := by
  have hlawful : ∀ attempt ∈ [(⟨fullDisk, .ok google⟩ : Attempt)] ++
      [⟨FileSlot.replace, .ok google⟩], FileSlot.Lawful attempt.replace := by
    intro attempt ha
    simp only [List.cons_append, List.nil_append, List.mem_cons, List.not_mem_nil,
      or_false] at ha
    rcases ha with rfl | rfl
    · exact lawful_fullDisk
    · exact FileSlot.lawful_replace
  have hok : ((ofAddress (some "https://rules.test") (some { path := "index.json" })).run
      [⟨fullDisk, .ok google⟩]).outcome ⟨FileSlot.replace, .ok google⟩ = .ok () := by
    rfl
  exact ⟨hok, entry_eq_index_iff hlawful rfl hok⟩

/-- A directory is at the path. The first refresh reports that, and the second one does nothing. -/
theorem directory_of_refresh_ok :
    let opened := ofAddress (some "https://rules.test")
      (some { path := "index.json", site := .made .directory none })
    let attempt : Attempt := ⟨FileSlot.replace, .ok google⟩
    opened.outcome attempt = .error (.overwritesDirectory "index.json.tmp" "index.json") ∧
      (opened.step attempt).outcome attempt = .ok () ∧
      (opened.run [attempt, attempt]).file.map FileSlot.entry = some .directory := by
  refine ⟨rfl, rfl, rfl⟩

end Catalog

end DomainRules
