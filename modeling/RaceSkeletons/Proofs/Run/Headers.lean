import RaceSkeletons.Proofs.Corpus.Headers
import RaceSkeletons.Proofs.Corpus.Visits
import RaceSkeletons.Proofs.Run.Isolation

/-!
# Package headers of a run

A run that normalizes reads its fragments after the pass. Each of them has been
visited, so a fragment that is a text is loaded with the normal text of its file
(`RunContext.loaded_of_found`), and the report tells of that text whether it
declares a package (`CaseRow.cell?_hasPackage`).

What decides about the header is not what decides about the figure; where the two
agree is `headers_agree_on_first_line`.
-/

namespace RaceSkeletons

open FileSystem

/-! ## Fragments of a run -/

theorem loaded_of_examine {fs : FileSystem} {extension : String} {dir : Path} {c : Case}
    (h : (examine fs extension dir).case? = some c) :
    ∀ f ∈ c.fragments, f = Fragment.load fs f.path := by
  rw [examine_def] at h
  split at h
  · cases h
  · obtain rfl := Option.some.inj h
    intro f hf
    rcases List.mem_pair.mp hf with rfl | rfl <;> rw [Fragment.load_path]
  · cases h

namespace RunContext

variable {ctx : RunContext} {req : RunRequest} {fs : FileSystem} {c : Case} {f : Fragment}
  {text : String}

/-- The fragments that a run finds, by their files. -/
theorem mem_found (hwf : fs.WellFormed) (hc : c ∈ (ctx.found req fs).cases) :
    c.dir ∈ (ctx.prepared req fs).directoriesIn req.root ∧ ∀ f ∈ c.fragments,
      f.path ∈ (ctx.prepared req fs).fragmentsIn ctx.settings.extension c.dir ∧
        f = Fragment.load (ctx.prepared req fs) f.path := by
  rw [found] at hc
  cases hd : discover (ctx.prepared req fs) req.root ctx.settings.extension with
  | error e =>
      rw [hd] at hc
      cases hc
  | ok d =>
      rw [hd] at hc
      have hpartition := (lists_entryPaths _).isPartition (wellFormed_prepared ctx req hwf) hd
      obtain ⟨hdir, hpaths⟩ := hpartition.mem_of_case hc
      have hloaded : ∀ f ∈ c.fragments, f = Fragment.load (ctx.prepared req fs) f.path := by
        obtain ⟨-, dirs, -, rfl⟩ := Lister.discover_eq_ok hd
        obtain ⟨finding, hfinding, hsome⟩ := List.mem_filterMap.mp hc
        obtain ⟨dir, -, rfl⟩ := List.mem_map.mp hfinding
        exact loaded_of_examine hsome
      exact ⟨hdir, fun f hf => ⟨hpaths f hf, hloaded f hf⟩⟩

theorem prepared_of_normalize (ctx : RunContext) (fs : FileSystem)
    (hnormalize : req.normalize = true) :
    let renamed := (renameFiles fs req.root ctx.settings.extension).1
    ctx.prepared req fs = (normalizeEach ctx.host ctx.checker renamed
      (fragmentsBelow renamed req.root ctx.settings.extension)).1 := by
  rw [prepared, if_pos hnormalize, normalizeCorpus]

/-- No rewriting of the file that a path leads to failed, under whatever path it was visited. -/
def RewritesFile (ctx : RunContext) (req : RunRequest) (fs : FileSystem) (p : Path) : Prop :=
  let renamed := (renameFiles fs req.root ctx.settings.extension).1
  ∀ report ∈ (normalizeCorpus ctx.host ctx.checker fs req.root ctx.settings.extension).2.fragments,
    renamed.canonical report.path = renamed.canonical p → report.IsRewritten

/-- Where no write fails halfway, no rewriting of a text fails whose file can be written. -/
theorem rewritesFile_of_isRewritable {p : Path} (hfaults : fs.faults = [])
    (hread : (renameFiles fs req.root ctx.settings.extension).1.readText p = .ok text)
    (hp : (renameFiles fs req.root ctx.settings.extension).1.IsRewritable p) :
    ctx.RewritesFile req fs p := by
  obtain ⟨location, bytes, mode, htarget, hopens⟩ := hp
  have hholds := (readText_eq_ok_iff_holdsText htarget).mp hread
  intro report hreport hsame
  rw [canonical_eq_ok_iff.mpr ⟨_, htarget⟩] at hsame
  obtain ⟨node, hleads⟩ := canonical_eq_ok_iff.mp hsame
  obtain rfl : node = .file bytes mode := Option.some.inj
    ((nodeAt?_of_target? hleads).symm.trans (nodeAt?_of_target? htarget))
  exact isRewritten_of_mem ((faults_renameFiles fs _ _).trans hfaults) hreport
    ((readText_eq_ok_iff_holdsText hleads).mpr hholds) ⟨_, _, _, hleads, hopens⟩

/-- A fragment is read after the contents were normalized, and one of the fragments that
were visited is its file. -/
theorem file_of_found (hwf : fs.WellFormed) (hnormalize : req.normalize = true)
    (hc : c ∈ (ctx.found req fs).cases) (hf : f ∈ c.fragments) :
    let renamed := (renameFiles fs req.root ctx.settings.extension).1
    f = Fragment.load (ctx.prepared req fs) f.path ∧
      ∃ q ∈ fragmentsBelow renamed req.root ctx.settings.extension, ∃ location node,
        renamed.target? f.path = .ok (location, node) ∧
          renamed.target? q = .ok (location, node) := by
  obtain ⟨hdir, hfragments⟩ := mem_found hwf hc
  obtain ⟨hpath, hloaded⟩ := hfragments f hf
  have hwf' := wellFormed_prepared ctx req hwf
  have hrenamed : (renameFiles fs req.root ctx.settings.extension).1.WellFormed :=
    hwf.renameEach ctx.settings.extension _
  refine ⟨hloaded, ?_⟩
  rw [prepared_of_normalize ctx fs hnormalize] at hdir hpath hwf'
  have hrewrite := isRewrite_normalizeEach ctx.host ctx.checker
    (renameFiles fs req.root ctx.settings.extension).1
    (fragmentsBelow (renameFiles fs req.root ctx.settings.extension).1 req.root
      ctx.settings.extension)
  have hdir' := (hrewrite.perm_directoriesIn hrenamed hwf' req.root).mem_iff.mp hdir
  have hpath' := (hrewrite.perm_fragmentsIn hrenamed hwf' _ c.dir).mem_iff.mp hpath
  exact hrenamed.visited_of_found hdir' hpath'

/-- A fragment that was a text before the contents were normalized is loaded with the normal
text, if no rewriting of its file failed, and as it was, if its file cannot be written. -/
theorem loaded_of_found (hwf : fs.WellFormed) (hnormalize : req.normalize = true)
    (hc : c ∈ (ctx.found req fs).cases) (hf : f ∈ c.fragments) :
    let renamed := (renameFiles fs req.root ctx.settings.extension).1
    renamed.readText f.path = .ok text →
      (ctx.RewritesFile req fs f.path →
        f.content = normalText text ∧ ∃ size, f.stats = .ofContent size (normalText text)) ∧
      (¬ renamed.IsRewritable f.path →
        f.content = text ∧ ∃ size, f.stats = .ofContent size text) := by
  obtain ⟨hloaded, q, hq, location, node, htarget, hvisited⟩ := file_of_found hwf hnormalize hc hf
  intro renamed htext
  have hrewrite := isRewrite_normalizeEach ctx.host ctx.checker renamed
    (fragmentsBelow renamed req.root ctx.settings.extension)
  obtain ⟨node', -, htarget'⟩ := hrewrite.grows.target? htarget
  have hholds := (readText_eq_ok_iff_holdsText htarget).mp htext
  rw [hloaded, prepared_of_normalize ctx fs hnormalize, Fragment.load_path]
  refine ⟨fun hdone => ?_, fun hno => ?_⟩ <;>
    refine load_of_readText ((readText_eq_ok_iff_holdsText htarget').mpr ?_)
  · refine (hholds.normalizeEach fun report hreport node hleads => hdone report hreport ?_).elim
      id fun hmissed => absurd hvisited (hmissed.2 q hq node)
    rw [canonical_eq_ok_iff.mpr ⟨_, htarget⟩, canonical_eq_ok_iff.mpr ⟨_, hleads⟩]
  · obtain ⟨bytes, mode, hnode, hdecode⟩ := hholds
    have halone : renamed.IsLeftAlone location := by
      intro bytes' mode' _ hnode' _
      rw [nodeAt?_of_target? htarget] at hnode'
      obtain rfl := Option.some.inj hnode'
      exact .inr fun hopens => hno ⟨location, bytes', mode', htarget, hopens⟩
    refine ⟨bytes, mode, ?_, hdecode⟩
    rw [halone.nodeAt?_normalizeEach ctx.host ctx.checker, hnode]

end RunContext

/-- The cells of a record that tell whether the fragments declare a package. -/
theorem CaseRow.cell?_hasPackage {c : Case} {side : Fragment × String}
    (h : side ∈ [(c.first, "file1_has_package"), (c.second, "file2_has_package")])
    (results : AnalysisResults) (kind : RaceKind) :
    cell? side.2 (CaseRow.of c results kind).record = some "TRUE" ↔
      side.1.stats.hasPackage = true := by
  rcases List.mem_pair.mp h with rfl | rfl
  all_goals
    rw [← flagText_eq_true, ← Option.some_inj]
    simp [cell?, reportColumns, record, CaseRow.of, FragmentRow.stats_of, List.lookup]

/-! ## Headers before and after -/

/-- **The first line decides about the header, any line about the figure.** A text
is left alone exactly if its first line begins with the keyword. Otherwise it is
given a header, unless its file cannot be written. The figures tell whether any line
declares a package, which is the keyword and a space. So the two tests agree on a
text exactly if, whenever its first line begins with the keyword, some line declares
a package, and whenever a later line declares one, the first line begins with the
keyword.

In a complete run that normalizes, a fragment that is a text loses its comments, and
is given a header if its first line does not begin with the keyword, so never a
second one in front of a first line that declares a package. The report then tells
of a package unless the text had a header and no line declares a package once its
comments are gone; a header that names a package is enough. That is if no rewriting
of its file failed, and none does if its file can be opened for writing and no write
fails halfway. A file that cannot be opened for writing stays as it was. -/
theorem headers_agree_on_first_line :
    (∀ (fs : FileSystem) (p : Path) (text : String) (size : Nat), fs.readText p = .ok text →
      (ensureHeader fs p = (fs, .ok false) ↔ hasHeader text = true) ∧
      (hasHeader text = false →
        (ensureHeader fs p).2 = .ok true ∧
            (ensureHeader fs p).1.readText p = .ok (defaultHeader ++ text) ∨
          (∃ e, (ensureHeader fs p).2 = .error e) ∧ ¬ (fs.IsRewritable p ∧ fs.fault? = none)) ∧
      ((FragmentStats.ofContent size text).hasPackage = true ↔
        declaresFirst text = true ∨ declaresLater text = true) ∧
      (declaresFirst text = true → hasHeader text = true) ∧
      ((ensureHeader fs p = (fs, .ok false) ↔
          (FragmentStats.ofContent size text).hasPackage = true) ↔
        (hasHeader text = true → declaresFirst text = true ∨ declaresLater text = true) ∧
          (declaresLater text = true → hasHeader text = true))) ∧
    ∀ (ctx : RunContext) (req : RunRequest) (fs : FileSystem) (startedAt : Timestamp)
      (elapsed : Duration) (outcome : RunOutcome),
      let run := ctx.execute req fs startedAt elapsed
      let renamed := (renameFiles fs req.root ctx.settings.extension).1
      let cases := (ctx.found req fs).cases
      fs.WellFormed → req.normalize = true → run.result = .ok outcome →
        ∃ bytes records, run.fs.readBytes req.reportFile = .ok bytes ∧
          Csv.read bytes = some (reportColumns :: records) ∧ records.length = cases.length ∧
          ∀ (i : Nat) c record, cases[i]? = some c → records[i]? = some record →
            ∀ side ∈ [(c.first, "file1_has_package"), (c.second, "file2_has_package")],
              ∀ text, renamed.readText side.1.path = .ok text →
                (ctx.RewritesFile req fs side.1.path →
                  (hasHeader text = true → side.1.content = stripComments text) ∧
                  (hasHeader text = false →
                    side.1.content = defaultHeader ++ stripComments text) ∧
                  (cell? side.2 record = some "TRUE" ↔
                    (hasHeader text = true → declaresFirst (stripComments text) = true ∨
                      declaresLater (stripComments text) = true)) ∧
                  ((hasHeader text = true → NamesPackage text) →
                    cell? side.2 record = some "TRUE")) ∧
                (¬ renamed.IsRewritable side.1.path →
                  side.1.content = text ∧ (cell? side.2 record = some "TRUE" ↔
                    declaresFirst text = true ∨ declaresLater text = true)) ∧
                (fs.faults = [] → renamed.IsRewritable side.1.path →
                  ctx.RewritesFile req fs side.1.path) := by
  refine ⟨fun fs p text size htext => ?_, ?_⟩
  · have hheader := ensureHeader_eq_iff htext
    refine ⟨hheader, ensureHeader_of_noHeader htext, ?_, hasHeader_of_declaresFirst, ?_⟩
    · rw [hasPackage_eq, Bool.or_eq_true]
    · rw [hheader]
      exact hasHeader_iff_hasPackage size text
  · intro ctx req fs startedAt elapsed outcome run renamed cases hwf hnormalize hresult
    obtain ⟨-, bytes, hbytes, hread⟩ := RunContext.report_of_execute hresult
    refine ⟨bytes, _, hbytes, hread, ?_, ?_⟩
    · simp only [RunContext.reportRows, aggregate, List.length_map, cases]
    · intro i c record hc hrecord side hside text htext
      simp only [RunContext.reportRows, aggregate, List.map_map, List.getElem?_map] at hrecord
      rw [hc, Option.map_some, Function.comp_apply] at hrecord
      obtain rfl := Option.some.inj hrecord
      have hmem : c ∈ (ctx.found req fs).cases := List.mem_of_getElem? hc
      have hfragment : side.1 ∈ c.fragments := by
        rcases List.mem_pair.mp hside with rfl | rfl
        · exact List.mem_cons_self
        · exact List.mem_cons_of_mem _ List.mem_cons_self
      have hcell := fun results => CaseRow.cell?_hasPackage hside results (ctx.pattern.classify c)
      obtain ⟨hrewritten, hunwritten⟩ :=
        RunContext.loaded_of_found hwf hnormalize hmem hfragment htext
      refine ⟨fun hdone => ?_, fun hno => ?_,
        fun hfaults => RunContext.rewritesFile_of_isRewritable hfaults htext⟩
      · obtain ⟨hcontent, size, hstats⟩ := hrewritten hdone
        have hflag := hasPackage_normalText_iff size text
        rw [← hstats] at hflag
        refine ⟨fun hheader => ?_, fun hnone => ?_, (hcell _).trans hflag, fun hnames => ?_⟩
        · rw [hcontent, normalText_of_header hheader]
        · rw [hcontent, normalText_of_noHeader hnone]
        · rw [hcell, hstats, hasPackage_eq, declaresFirst_normalText hnames, Bool.true_or]
      · obtain ⟨hcontent, size, hstats⟩ := hunwritten hno
        rw [hcell, hstats, hasPackage_eq, Bool.or_eq_true]
        exact ⟨hcontent, Iff.rfl⟩

/-- The files of the sample have their normal names. -/
theorem renameFiles_sample : (renameFiles sampleFiles ⟨"/r"⟩ "go").1 = sampleFiles := by
  have hnormal : ∀ entry ∈ sampleFiles.entries, entry.node.isRegular = true →
      ∀ name ∈ entry.location.getLast?, normalName name "go" = name := by
    decide
  refine (isTree_sample.renameFiles_of_settled (by decide) fun names name hfile =>
    .inr ?_).1
  obtain ⟨node, hnode, hregular⟩ := hfile.isRegular
  obtain ⟨entry, hentry, hlocation, rfl⟩ := exists_entry_of_nodeAt?
    (List.append_ne_nil_of_right_ne_nil _ (List.cons_ne_nil _ _)) hnode
  rw [hnormal entry hentry hregular name (by rw [hlocation, List.getLast?_concat]; rfl), hnode]
  exact nofun

/-- What discovery is to look at in the sample. -/
theorem entries_sample : sampleFiles.directoriesIn ⟨"/r"⟩ = [⟨"/r/a"⟩] ∧
    [sampleCase.first.path, sampleCase.second.path].Perm
      (sampleFiles.fragmentsIn "go" ⟨"/r/a"⟩) := by
  obtain ⟨-, hdir, hentries⟩ := root_sample
  obtain ⟨findings, hsurvey, hcases⟩ := survey_sample
  have hfound : Lister.discover sampleFiles.entryPaths sampleFiles ⟨"/r"⟩ "go" =
      .ok (.ofFindings findings) := congrArg (Except.map Discovery.ofFindings) hsurvey
  have hpartition := sampleFiles.lists_entryPaths.isPartition isTree_sample.wellFormed hfound
  refine ⟨?_, (hpartition.isCase sampleCase (by rw [hcases]; exact .head _)).fragments⟩
  simp only [directoriesIn, entriesWith, hentries]
  refine List.filter_eq_self.mpr fun p hp => ?_
  rw [List.mem_singleton.mp hp]
  exact isDir_iff.mpr ⟨_, hdir⟩

/-- After normalization the sample has one case still, of the same two files. -/
theorem found_normalizing_sample :
    ∃ c, (sampleRun.found normalizingRequest sampleFiles).cases = [c] ∧
      ∀ f ∈ c.fragments, f.path ∈ [sampleCase.first.path, sampleCase.second.path] := by
  have hwf : sampleFiles.WellFormed := isTree_sample.wellFormed
  have hwf' := RunContext.wellFormed_prepared sampleRun normalizingRequest hwf
  have hrewrite : IsRewrite sampleFiles (sampleRun.prepared normalizingRequest sampleFiles) := by
    have hprepared : sampleRun.prepared normalizingRequest sampleFiles =
        (normalizeEach sampleRun.host sampleRun.checker (renameFiles sampleFiles ⟨"/r"⟩ "go").1
          (fragmentsBelow (renameFiles sampleFiles ⟨"/r"⟩ "go").1 ⟨"/r"⟩ "go")).1 :=
      RunContext.prepared_of_normalize sampleRun sampleFiles rfl
    rw [hprepared, renameFiles_sample]
    exact isRewrite_normalizeEach _ _ _ _
  obtain ⟨hroot, hdir, -⟩ := root_sample
  obtain ⟨hdirectories, hfragments⟩ := entries_sample
  have hdirs := hrewrite.perm_directoriesIn hwf hwf' ⟨"/r"⟩
  have hpaths := (hrewrite.perm_fragmentsIn hwf hwf' "go" ⟨"/r/a"⟩).trans hfragments.symm
  rw [hdirectories] at hdirs
  have hlists : (sampleRun.prepared normalizingRequest sampleFiles).Listable ⟨"/r"⟩ :=
    ⟨["r"], hrewrite.grows.listDir (listDir_eq_ok_iff.mpr ⟨hroot, rfl⟩)⟩
  obtain ⟨findings, hsurvey⟩ := survey_eq_ok_iff.mpr hlists
  have hfound : sampleRun.found normalizingRequest sampleFiles = .ofFindings findings :=
    RunContext.found_eq hsurvey
  have hdiscover : Lister.discover (sampleRun.prepared normalizingRequest sampleFiles).entryPaths
      (sampleRun.prepared normalizingRequest sampleFiles) ⟨"/r"⟩ "go" =
        .ok (.ofFindings findings) := congrArg (Except.map Discovery.ofFindings) hsurvey
  have hpartition := (lists_entryPaths _).isPartition hwf' hdiscover
  -- the one directory can be listed and has two fragments, so it is a case
  have hlisted :
      ((sampleRun.prepared normalizingRequest sampleFiles).entryPaths ⟨"/r/a"⟩).isOk = true := by
    have hlist := hrewrite.grows.listDir (listDir_eq_ok_iff.mpr ⟨hdir, rfl⟩)
    rw [entryPaths_eq_ok_iff.mpr ⟨_, hlist, rfl⟩]
    rfl
  obtain ⟨c, hcases, hsame⟩ := hpartition.cases_of_one hdirs hlisted hpaths.length_eq
  refine ⟨c, by rw [hfound, hcases], fun f hf => ?_⟩
  have hfragment := (hpartition.isCase c (hcases ▸ List.mem_singleton_self c)).fragments
  rw [hsame] at hfragment
  exact (hfragment.trans hpaths).mem_iff.mp (List.mem_map_of_mem hf)

/-- The first file has a header, with a comment behind it; the fragments of the
sample are empty, and are given one. -/
theorem headers_agree_on_first_line_sample :
    let files : FileSystem :=
      { entries := [⟨["f"], .file (Utf8.encode "\tpackage p // f\r\n") .plain⟩], workingDir := [] }
    ensureHeader files ⟨"f"⟩ = (files, .ok false) ∧ sampleFiles.WellFormed ∧
      ∃ outcome bytes c record,
        (sampleRun.execute normalizingRequest sampleFiles default default).result = .ok outcome ∧
        (sampleRun.execute normalizingRequest sampleFiles default default).fs.readBytes ⟨"s.csv"⟩ =
          .ok bytes ∧
        Csv.read bytes = some [reportColumns, record] ∧
        (sampleRun.found normalizingRequest sampleFiles).cases = [c] ∧
        sampleRun.RewritesFile normalizingRequest sampleFiles c.first.path ∧
        c.first.content = "package main\n\n" ∧
        cell? "file1_has_package" record = some "TRUE" ∧
        cell? "file2_has_package" record = some "TRUE" := by
  intro files
  obtain ⟨hfile, hrun⟩ := headers_agree_on_first_line
  have htext : files.readText ⟨"f"⟩ = .ok "\tpackage p // f\r\n" :=
    readText_eq_ok_iff.mpr ⟨["f"], _, .plain, target?_of_goesDown (by decide),
      Utf8.decode?_encode _⟩
  obtain ⟨hsame, -⟩ := hfile files ⟨"f"⟩ _ 0 htext
  have hwf : sampleFiles.WellFormed := isTree_sample.wellFormed
  obtain ⟨outcome, hresult, -⟩ := execute_normalizing_sample
  obtain ⟨bytes, records, hbytes, hread, hlength, hcells⟩ :=
    hrun sampleRun normalizingRequest sampleFiles default default outcome hwf rfl hresult
  obtain ⟨c, hcases, hpaths⟩ := found_normalizing_sample
  rw [hcases] at hlength hcells
  obtain ⟨record, rfl⟩ := List.length_eq_one_iff.mp hlength
  have hempty : ∀ f ∈ c.fragments,
      (renameFiles sampleFiles ⟨"/r"⟩ "go").1.readText f.path = .ok "" ∧
        (renameFiles sampleFiles ⟨"/r"⟩ "go").1.IsRewritable f.path := by
    intro f hf
    have htarget : ∃ location, sampleFiles.target? f.path = .ok (location, .file [] .plain) := by
      rcases List.mem_pair.mp (hpaths f hf) with hpath | hpath <;> rw [hpath]
      · exact ⟨["r", "a", "w.go"], target?_sample (by decide)⟩
      · exact ⟨["r", "a", "x.go"], target?_sample (by decide)⟩
    obtain ⟨location, htarget⟩ := htarget
    rw [renameFiles_sample]
    exact ⟨readText_eq_ok_iff.mpr ⟨location, [], .plain, htarget, rfl⟩,
      location, [], .plain, htarget, rfl⟩
  have hside := hcells 0 c record rfl rfl
  obtain ⟨htextFirst, hopensFirst⟩ := hempty c.first (.head _)
  obtain ⟨htextSecond, hopensSecond⟩ := hempty c.second (.tail _ (.head _))
  obtain ⟨hnormalFirst, -, hrewritesFirst⟩ := hside (c.first, _) (.head _) "" htextFirst
  obtain ⟨hnormalSecond, -, hrewritesSecond⟩ :=
    hside (c.second, _) (.tail _ (.head _)) "" htextSecond
  have hrewrites := hrewritesFirst rfl hopensFirst
  obtain ⟨-, hcontent, -, hfirst⟩ := hnormalFirst hrewrites
  obtain ⟨-, -, -, hsecond⟩ := hnormalSecond (hrewritesSecond rfl hopensSecond)
  refine ⟨hsame.mpr (by decide), hwf, outcome, bytes, c, record, hresult, hbytes, hread,
    hcases, hrewrites, ?_, hfirst nofun, hsecond nofun⟩
  exact (hcontent rfl).trans (by decide)

/-- A fragment that declares its package behind a comment, and one whose first line begins
with the keyword and declares none. -/
def notedFiles : FileSystem where
  entries := [⟨["r"], .dir⟩, ⟨["r", "c"], .dir⟩,
    ⟨["r", "c", "a.go"], .file (Utf8.encode "// note\npackage p\n") .plain⟩,
    ⟨["r", "c", "b.go"], .file (Utf8.encode "packages := 1\n") .plain⟩]
  workingDir := []

/-- The figures tell of a package in the first, and it is given a second header. They tell of
none in the second, and it is given no header. -/
theorem headers_differ_behind_comment :
    (let text := "// note\npackage p\n"
     notedFiles.readText ⟨"r/c/a.go"⟩ = .ok text ∧
      ¬ (ensureHeader notedFiles ⟨"r/c/a.go"⟩ = (notedFiles, .ok false) ↔
        (FragmentStats.ofContent (byteLength text) text).hasPackage = true) ∧
      (ensureHeader notedFiles ⟨"r/c/a.go"⟩).2 = .ok true ∧
      (ensureHeader notedFiles ⟨"r/c/a.go"⟩).1.readText ⟨"r/c/a.go"⟩ =
        .ok "package main\n\n// note\npackage p\n") ∧
    (let text := "packages := 1\n"
     notedFiles.readText ⟨"r/c/b.go"⟩ = .ok text ∧
      ¬ (ensureHeader notedFiles ⟨"r/c/b.go"⟩ = (notedFiles, .ok false) ↔
        (FragmentStats.ofContent (byteLength text) text).hasPackage = true) ∧
      ensureHeader notedFiles ⟨"r/c/b.go"⟩ = (notedFiles, .ok false)) := by
  have hread : ∀ p location text,
      notedFiles.target? p = .ok (location, .file (Utf8.encode text) .plain) →
        notedFiles.readText p = .ok text := fun p location text htarget =>
    readText_eq_ok_iff.mpr ⟨location, _, .plain, htarget, Utf8.decode?_encode text⟩
  have htarget : notedFiles.target? ⟨"r/c/a.go"⟩ =
      .ok (["r", "c", "a.go"], .file (Utf8.encode "// note\npackage p\n") .plain) :=
    target?_of_goesDown (by decide)
  have hnoted := hread _ _ _ htarget
  have hplain := hread ⟨"r/c/b.go"⟩ ["r", "c", "b.go"] "packages := 1\n"
    (target?_of_goesDown (by decide))
  constructor
  · refine ⟨hnoted, ?_, ?_⟩
    · rw [ensureHeader_eq_iff hnoted]
      decide
    · exact (ensureHeader_of_noHeader hnoted (by decide)).resolve_right fun hfailed =>
        hfailed.2 ⟨⟨_, _, _, htarget, rfl⟩, rfl⟩
  · refine ⟨hplain, ?_, (ensureHeader_eq_iff hplain).mpr (by decide)⟩
    rw [ensureHeader_eq_iff hplain]
    decide

end RaceSkeletons
