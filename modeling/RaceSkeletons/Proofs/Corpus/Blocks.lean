import RaceSkeletons.Proofs.Corpus.Combine
import RaceSkeletons.Proofs.Corpus.Under
import RaceSkeletons.Proofs.Run.Rerun

/-!
# The blocks of the combined file

The combined file has one block for every fragment under the root that can be read,
and tells which could not (`CombinedFile.IsOf`). The combined file may lie under the
root itself, and be met under any of its paths: it is told by where they lead, so it
is never among the fragments. Hence nothing it held matters, nor what is put into it
while the walk goes on: what is written depends only on the tree in which the file
is opened (`writeCombined_of_opened`), and that tree is the same the next time.
-/

namespace RaceSkeletons

open FileSystem

variable {fs fs' opened written : FileSystem} {root output p : Path} {location : Location}
  {extension : String} {mode : FileMode}

/-! ## Steps and paths -/

namespace FileSystem

/-- The block of a fragment: a line with its path, its bytes, and two line feeds.
Nothing if it cannot be read. -/
def block (fs : FileSystem) (p : Path) : Bytes :=
  match fs.readBytes p with
  | .ok content => Utf8.encode ("// " ++ p.text ++ "\n") ++ content ++ Utf8.encode "\n\n"
  | .error _ => []

def isReadable (fs : FileSystem) (p : Path) : Bool :=
  (fs.readBytes p).isOk

/-- Whether a path is that of a fragment, but does not lead to the combined file. -/
def isBeside (fs : FileSystem) (location : Location) (extension : String) (p : Path) : Bool :=
  p.hasExtension extension && decide ((fs.canonical p).toOption ≠ some location)

/-- The fragments that a walk meets, in its order, beside the combined file. -/
def fragmentsBeside (fs : FileSystem) (root : Path) (location : Location) (extension : String) :
    List Path :=
  ((fs.walk filesFirst root).filterMap Visit.file?).filter (fs.isBeside location extension)

theorem isBeside_iff : fs.isBeside location extension p = true ↔
    p.hasExtension extension = true ∧ fs.canonical p ≠ .ok location := by
  rw [isBeside, Bool.and_eq_true, decide_eq_true_iff]
  cases fs.canonical p with
  | error e => simp [Except.toOption]
  | ok place => simp [Except.toOption]

end FileSystem

/-- A fragment beside the combined file is written or skipped, as it can be read. -/
theorem combineStep?_cases (fs : FileSystem) (location : Location) (extension : String) (p : Path) :
    (fs.isBeside location extension p = false ∧
        combineStep? fs location extension (.file p) = none) ∨
      fs.isBeside location extension p = true ∧
        ((∃ content, fs.readBytes p = .ok content ∧
            combineStep? fs location extension (.file p) = some (.written p content)) ∨
          ∃ e, fs.readBytes p = .error e ∧
            combineStep? fs location extension (.file p) = some (.skipped p e)) := by
  rw [combineStep?, isBeside]
  cases p.hasExtension extension with
  | false => exact .inl ⟨rfl, rfl⟩
  | true =>
      by_cases hsame : (fs.canonical p).toOption = some location
      · exact .inl ⟨by simp [hsame], by simp [hsame]⟩
      · refine .inr ⟨by simp [hsame], ?_⟩
        cases fs.readBytes p with
        | ok content => exact .inl ⟨content, rfl, by simp [hsame]⟩
        | error e => exact .inr ⟨e, rfl, by simp [hsame]⟩

/-- What the steps of a walk come to, by the fragments that it meets. -/
theorem steps_of_visits (fs : FileSystem) (location : Location) (extension : String)
    (visits : List Visit) :
    let steps := visits.filterMap (combineStep? fs location extension)
    let paths := (visits.filterMap Visit.file?).filter (fs.isBeside location extension)
    steps.flatMap CombineStep.block = (paths.filter fs.isReadable).flatMap fs.block ∧
      steps.countP CombineStep.isWritten = (paths.filter fs.isReadable).length ∧
      steps.filterMap CombineStep.skipped? = paths.filter fun p => !fs.isReadable p := by
  induction visits with
  | nil => exact ⟨rfl, rfl, rfl⟩
  | cons visit rest ih =>
      obtain ⟨hblocks, hcount, hskipped⟩ := ih
      cases visit with
      | file p =>
          rw [List.filterMap_cons_some (f := Visit.file?) (b := p) rfl, List.filter_cons]
          rcases combineStep?_cases fs location extension p with ⟨hout, hstep⟩ |
            ⟨hin, ⟨content, hread, hstep⟩ | ⟨e, hread, hstep⟩⟩
          · rw [List.filterMap_cons_none hstep, hout]
            exact ⟨hblocks, hcount, hskipped⟩
          · have hreadable : fs.isReadable p = true := by
              rw [isReadable, hread]
              rfl
            have hblock : fs.block p = CombineStep.block (.written p content) := by
              rw [FileSystem.block, hread]
              rfl
            rw [List.filterMap_cons_some hstep, hin, if_pos rfl]
            refine ⟨?_, ?_, ?_⟩
            · rw [List.filter_cons_of_pos hreadable, List.flatMap_cons, List.flatMap_cons, hblock,
                hblocks]
            · rw [List.filter_cons_of_pos hreadable, List.countP_cons_of_pos rfl, List.length_cons,
                hcount]
            · rw [List.filterMap_cons_none rfl, List.filter_cons_of_neg (by simp [hreadable]),
                hskipped]
          · have hunreadable : fs.isReadable p = false := by
              rw [isReadable, hread]
              rfl
            rw [List.filterMap_cons_some hstep, hin, if_pos rfl]
            refine ⟨?_, ?_, ?_⟩
            · rw [List.filter_cons_of_neg (by simp [hunreadable]), List.flatMap_cons, hblocks]
              rfl
            · rw [List.filter_cons_of_neg (by simp [hunreadable]),
                List.countP_cons_of_neg Bool.false_ne_true, hcount]
            · rw [List.filterMap_cons_some (f := CombineStep.skipped?) (b := p) rfl,
                List.filter_cons_of_pos (by simp [hunreadable]), hskipped]
      -- what is no file has no block, and an entry that cannot be visited is not skipped
      | failed e => exact ⟨hblocks, hcount, hskipped⟩
      | dir _ => exact ⟨hblocks, hcount, hskipped⟩
      | special _ => exact ⟨hblocks, hcount, hskipped⟩

/-! ## What is written -/

/-- What is told of a combined file, when it was written. -/
def combinedReport (opened : FileSystem) (root output : Path) (location : Location)
    (extension : String) : CombineReport :=
  let steps := combineSteps opened root location extension
  let combined := CombinedFile.ofSteps steps
  ⟨.ok combined, steps.flatMap CombineStep.notices ++
    [.combined output combined.fragments combined.skipped.length]⟩

/-- The combined file, and what is told of it, are those of the tree in which it was
opened. -/
theorem writeCombined_of_opened (hopens : IsOpened fs opened output location)
    (hfaults : fs.faults = []) (hwf : opened.WellFormed)
    (hfile : opened.nodeAt? location = some (.file [] mode)) (root : Path) (extension : String) :
    writeCombined fs root output extension =
      (opened.replaceAt location (.file (combinedData opened root location extension) mode),
        combinedReport opened root output location extension) := by
  have hopened : opened.faults = [] := hopens.faults.trans hfaults
  obtain ⟨around, hparents, hcreate⟩ := hopens
  have hfill : opened.fill location (combinedData opened root location extension) =
      (opened.replaceAt location (.file (combinedData opened root location extension) mode),
        .ok ()) := by
    rw [fill_of_file hfile (fault?_of_nil hopened), overwrite_of_nil hopened]
    split
    · next hnil => rw [hnil, hwf.replaceAt_self (ne_nil_of_file hfile) hfile]
    · rfl
  rw [combinedData] at hfill ⊢
  simp only [writeCombined, hparents, hcreate, hfill]
  rfl

namespace FileSystem

/-- A regular file with the extension, down from the root and through links. -/
structure IsFragmentUnder (fs : FileSystem) (root : Path) (extension : String) (p : Path) :
    Prop where
  under : ∃ trail node, LiesUnder fs root trail p node ∧ fs.ShowsFile p node
  hasExtension : p.hasExtension extension = true

theorem mem_fragmentsBeside_iff (hwf : fs.WellFormed) :
    p ∈ fs.fragmentsBeside root location extension ↔
      fs.IsFragmentUnder root extension p ∧ fs.canonical p ≠ .ok location := by
  rw [fragmentsBeside, List.mem_filter, mem_files_walk, hwf.mem_walk_iff, isBeside_iff]
  exact ⟨fun ⟨hunder, hextension, hother⟩ => ⟨⟨hunder, hextension⟩, hother⟩,
    fun ⟨⟨hunder, hextension⟩, hother⟩ => ⟨hunder, hextension, hother⟩⟩

/-- Where there are no cycles, every fragment is under the root that goes down from there. -/
theorem IsAcyclic.isFragmentUnder_iff (hacyclic : fs.IsAcyclic root) :
    fs.IsFragmentUnder root extension p ↔
      (∃ node, Descends fs root p node ∧ fs.ShowsFile p node) ∧
        p.hasExtension extension = true := by
  simp only [← hacyclic.liesUnder_iff]
  constructor
  · rintro ⟨⟨trail, node, hunder, hshows⟩, hextension⟩
    exact ⟨⟨node, ⟨trail, hunder⟩, hshows⟩, hextension⟩
  · rintro ⟨⟨node, ⟨trail, hunder⟩, hshows⟩, hextension⟩
    exact ⟨⟨trail, node, hunder, hshows⟩, hextension⟩

/-- A fragment stays one when files are written. -/
theorem IsFragmentUnder.grows (h : fs.IsFragmentUnder root extension p) (hgrows : Grows fs fs') :
    fs'.IsFragmentUnder root extension p := by
  obtain ⟨⟨trail, node, hunder, hshows⟩, hextension⟩ := h
  obtain ⟨node', hnode, hunder'⟩ := hunder.grows hgrows
  exact ⟨⟨trail, node', hunder', hshows.grows hgrows hnode⟩, hextension⟩

/-- A fragment was one before a file was written, if it is not the file itself. A path that
is too long could be one of the file's: it does not tell. -/
theorem IsFragmentUnder.before {data : Bytes} (h : fs'.IsFragmentUnder root extension p)
    (hwf : fs'.WellFormed) (hwrite : IsWrite fs fs' location (.file data mode))
    (hother : fs'.canonical p ≠ .ok location) :
    fs.IsFragmentUnder root extension p ∨ IsOverlong p := by
  obtain ⟨⟨trail, node, hunder, hshows⟩, hextension⟩ := h
  refine (hunder.isFile_or hwf hshows).imp_left fun hfile => ?_
  obtain ⟨place, found, htarget, hregular⟩ := isFile_iff.mp hfile
  have hne : place ≠ location := by
    rintro rfl
    rw [canonical, htarget] at hother
    exact hother rfl
  have hbefore : fs.isFile p = true :=
    isFile_iff.mpr ⟨place, found, hwrite.target?_before htarget hne, hregular⟩
  refine ⟨⟨trail, node, hunder.before hwf hwrite htarget hne, ?_⟩, hextension⟩
  exact hshows.imp_right fun hlink => ⟨hlink.1, hbefore⟩

end FileSystem

/-- A combined file of a tree: every fragment under the root, but for the combined file
itself, has its block, or is among those that were skipped because they cannot be read. -/
structure CombinedFile.IsOf (combined : CombinedFile) (fs : FileSystem) (root output : Path)
    (extension : String) (paths : List Path) : Prop where
  /-- Each path comes once. -/
  nodup : paths.Nodup
  mem_iff : ∀ p, p ∈ paths ↔
    fs.IsFragmentUnder root extension p ∧ fs.canonical p ≠ fs.canonical output
  content : fs.readBytes output = .ok ((paths.filter fs.isReadable).flatMap fs.block)
  fragments : combined.fragments = (paths.filter fs.isReadable).length
  skipped : combined.skipped = paths.filter fun p => !fs.isReadable p
  total : combined.fragments + combined.skipped.length = paths.length

/-- What is written is a combined file of the tree that it is written to. -/
theorem isOf_of_overwrite (hwf : opened.WellFormed)
    (hcanonical : opened.canonical output = .ok location)
    (h : IsOverwrite opened written location (combinedData opened root location extension)
      mode) :
    (CombinedFile.ofSteps (combineSteps opened root location extension)).IsOf written root output
      extension (opened.fragmentsBeside root location extension) := by
  obtain ⟨hblocks, hcount, hskipped⟩ := steps_of_visits opened location extension
    (opened.walk filesFirst root)
  have hread : ∀ p ∈ opened.fragmentsBeside root location extension,
      written.readBytes p = opened.readBytes p := fun p hp =>
    h.readBytes (isBeside_iff.mp (List.mem_filter.mp hp).2).2
  have hreadable : ∀ p ∈ opened.fragmentsBeside root location extension,
      written.isReadable p = opened.isReadable p := fun p hp => by
    rw [isReadable, isReadable, hread p hp]
  have hfragments : (opened.fragmentsBeside root location extension).filter written.isReadable =
      (opened.fragmentsBeside root location extension).filter opened.isReadable :=
    List.filter_congr hreadable
  have hunreadable : (opened.fragmentsBeside root location extension).filter
      (fun p => !written.isReadable p) =
        (opened.fragmentsBeside root location extension).filter fun p => !opened.isReadable p :=
    List.filter_congr fun p hp => congrArg not (hreadable p hp)
  refine ⟨(hwf.nodup_files_walk _ _).filter _, fun p => ?_, ?_, ?_, ?_, ?_⟩
  · rw [mem_fragmentsBeside_iff hwf, h.canonical, h.canonical, hcanonical]
    exact and_congr_left fun _ => ⟨(·.grows h.grows), (·.grows h.grows_symm)⟩
  · rcases h.target?_cases output with ⟨-, hother⟩ | ⟨-, -, htarget⟩
    · exact absurd hcanonical hother
    · rw [FileSystem.readBytes, htarget, combinedData, combineSteps, hblocks, hfragments]
      refine congrArg Except.ok (List.flatMap_congr fun p hp => ?_)
      rw [FileSystem.block, FileSystem.block, hread p (List.mem_of_mem_filter hp)]
  · exact hcount.trans (congrArg List.length hfragments.symm)
  · exact hskipped.trans hunreadable.symm
  · rw [CombinedFile.ofSteps, combineSteps, hcount, hskipped]
    exact (List.length_eq_length_filter_add _).symm

/-! ## Discovery -/

/-- Where there are no cycles, the fragments that discovery finds are under the root. -/
theorem FileSystem.IsAcyclic.isFragmentUnder_of_discover {d : Discovery}
    (hacyclic : fs.IsAcyclic root) (hwf : fs.WellFormed)
    (hd : discover fs root extension = .ok d) {f : Fragment} (hf : f ∈ d.fragments) :
    fs.IsFragmentUnder root extension f.path := by
  obtain ⟨c, hc, hf⟩ := List.mem_flatMap.mp hf
  obtain ⟨hdir, hpaths⟩ := ((lists_entryPaths fs).isPartition hwf hd).mem_of_case hc
  obtain ⟨top, name, outer, htop, hentry, hc, -⟩ := hwf.mem_entriesWith_iff.mp hdir
  obtain ⟨location, name', inner, hlist, hentry', heq, hkeep⟩ :=
    hwf.mem_entriesWith_iff.mp (hpaths f hf)
  obtain ⟨hfile, hextension⟩ := Bool.and_eq_true_iff.mp hkeep
  obtain ⟨place, start, hstart⟩ := exists_locate_of_target? (listDir_eq_ok_iff.mp htop).1
  have hcase := hacyclic.entry (.root hstart) htop hentry
  rw [← hc] at hcase
  have hunder := hacyclic.entry hcase hlist hentry'
  rw [← heq] at hunder
  exact ⟨⟨_, inner, hunder, hunder.showsFile hwf hfile⟩, hextension⟩

/-! ## A file beside a case -/

/-- In the sample a way goes into the case and up again. -/
theorem leads_sample {rest : List String} {place : Place}
    (h : Leads sampleFiles true maxLinks ["r"] rest place) :
    Leads sampleFiles true maxLinks [] ("r" :: rest) place ∧
      Leads sampleFiles true maxLinks [] ("r" :: "a" :: ".." :: rest) place := by
  have hroot : Looks sampleFiles [] "r" :=
    ⟨by decide, by decide, by decide, by decide⟩
  have hcase : Looks sampleFiles ["r"] "a" :=
    ⟨by decide, by decide, by decide, by decide⟩
  have hnodes : sampleFiles.nodeAt? ["r"] = some .dir ∧
      sampleFiles.nodeAt? ["r", "a"] = some .dir := by
    decide
  have hup : Leads sampleFiles true maxLinks ["r", "a"] (".." :: rest) place :=
    .up (by decide) h
  exact ⟨.enter hroot hnodes.1 nofun h,
    .enter hroot hnodes.1 nofun (.enter hcase hnodes.2 nofun hup)⟩

/-- A file that is missing beside the case of the sample has two paths. -/
theorem missing_beside_sample :
    sampleFiles.makeParents ⟨"/r/a/../c.go"⟩ = (sampleFiles, .ok ()) ∧
      sampleFiles.locate true ⟨"/r/a/../c.go"⟩ = .ok ⟨["r", "c.go"], none⟩ ∧
      sampleFiles.locate true ⟨"/r/c.go"⟩ = .ok ⟨["r", "c.go"], none⟩ := by
  have hpaths : IsPassable ⟨"/r/a/../c.go"⟩ ∧
      (Path.mk "/r/a/../c.go").steps = ["r", "a", "..", "c.go"] ∧
      IsPassable ⟨"/r/c.go"⟩ ∧ (Path.mk "/r/c.go").steps = ["r", "c.go"] ∧
      IsPassable ⟨"/r/a/.."⟩ ∧ (Path.mk "/r/a/..").steps = ["r", "a", ".."] := by
    decide
  obtain ⟨hcrooked, hcrookedSteps, hstraight, hstraightSteps, hup, hupSteps⟩ := hpaths
  have hlast : Leads sampleFiles true maxLinks ["r"] ["c.go"] ⟨["r", "c.go"], none⟩ :=
    .missing ⟨by decide, by decide, by decide, by decide⟩ (by decide)
  refine ⟨?_, locate_eq_ok_iff.mpr ⟨hcrooked, hcrookedSteps ▸ (leads_sample hlast).2⟩,
    locate_eq_ok_iff.mpr ⟨hstraight, hstraightSteps ▸ (leads_sample hlast).1⟩⟩
  have hparent : (Path.mk "/r/a/../c.go").parent? = some ⟨"/r/a/.."⟩ := by decide
  have hdir : sampleFiles.target? ⟨"/r/a/.."⟩ = .ok (["r"], .dir) :=
    target?_eq_ok_iff.mpr ⟨hup, hupSteps ▸ (leads_sample .here).2⟩
  rw [makeParents, hparent]
  exact makeDirs_of_isDir (by decide) (.inr (isDir_iff.mpr ⟨_, hdir⟩))

/-- **The combined file has every fragment, once.** Where the output can be written
and no write fails, it is written, wherever it lies and however its path is spelled. It
has one block for every path that leads to a fragment which can be read, down from the
root and through links; the output itself is left out, under each of its paths. The
fragments are counted by their blocks, and what could not be read is what was skipped.
All fragments that were
under the root before are among these paths, and they are all the paths unless
directories had to be made around the output, or a path is too long to be looked up: it
could be one of the output, and is among those that were skipped.

A link back to a directory that it lies in is not followed. In a tree where there is
none, be it the one before or after, all that goes down from the root is under it, and
the fragments of every case that is discovered are in the combined file or skipped.

What is written does not depend on what was in the file: writing it again gives the
same files, counts and notices, and so does writing it to a tree where something else
was in the file. -/
theorem writeCombined_complete (hwf : fs.WellFormed) (hfaults : fs.faults = [])
    (hout : fs.Writable output) (root : Path) (extension : String) :
    ∃ written combined notices paths,
      writeCombined fs root output extension = (written, ⟨.ok combined, notices⟩) ∧
      combined.IsOf written root output extension paths ∧
      (∀ p, fs.IsFragmentUnder root extension p →
        written.canonical p ≠ written.canonical output → p ∈ paths) ∧
      (fs.makeParents output = (fs, .ok ()) →
        ∀ p ∈ paths, fs.IsFragmentUnder root extension p ∨ IsOverlong p) ∧
      (∀ tree ∈ [fs, written], tree.IsAcyclic root →
        (∀ p, tree.IsFragmentUnder root extension p ↔
          (∃ node, Descends tree root p node ∧ tree.ShowsFile p node) ∧
            p.hasExtension extension = true) ∧
        ∀ d, discover tree root extension = .ok d → ∀ f ∈ d.fragments,
          written.canonical f.path ≠ written.canonical output → f.path ∈ paths) ∧
      writeCombined written root output extension = (written, ⟨.ok combined, notices⟩) ∧
      ∀ location bytes mode, written.canonical output = .ok location →
        fs.nodeAt? location = some (.file bytes mode) → ∀ old,
          writeCombined (fs.replaceAt location (.file old mode)) root output extension =
            (written, ⟨.ok combined, notices⟩) := by
  obtain ⟨-, opened, location, bytes, mode, hopens, hfile⟩ := hout
  have hopened := hopens.wellFormed hwf
  obtain rfl := hopens.eq_nil hfile
  have hover : IsOverwrite opened _ location (combinedData opened root location extension)
      mode := ⟨⟨[], hfile⟩, rfl⟩
  have hisOf := isOf_of_overwrite hopened hopens.canonical hover
  have hgrows := hopens.grows.trans hover.grows
  refine ⟨_, _, _, _, writeCombined_of_opened hopens hfaults hopened hfile root extension, hisOf,
    fun p hp hother => (hisOf.mem_iff p).mpr ⟨hp.grows hgrows, hother⟩, fun hthere p hp => ?_,
    fun tree htree hacyclic => ⟨fun p => hacyclic.isFragmentUnder_iff, fun d hd f hf hother => ?_⟩,
    ?_, fun place _ _ hplace hold old => ?_⟩
  · obtain ⟨hfragment, hother⟩ := (mem_fragmentsBeside_iff hopened).mp hp
    obtain ⟨around', haround, hwrite⟩ := hopens.isWrite hfile
    obtain rfl : fs = around' := congrArg Prod.fst (hthere.symm.trans haround)
    exact hfragment.before hopened hwrite hother
  · rw [hisOf.mem_iff]
    refine ⟨?_, hother⟩
    rcases List.mem_pair.mp htree with rfl | rfl
    · exact (hacyclic.isFragmentUnder_of_discover hwf hd hf).grows hgrows
    · exact hacyclic.isFragmentUnder_of_discover (hopened.replaceAt _ _) hd hf
  -- the tree in which the file is opened is the same both times
  · exact writeCombined_of_opened (hopens.again hopened hfile _) (hopens.faults.trans hfaults)
      hopened hfile root extension
  · rw [hover.canonical, hopens.canonical] at hplace
    obtain rfl := Except.ok.inj hplace
    exact writeCombined_of_opened (hopens.of_replaceAt hold old) hfaults hopened hfile root
      extension

/-- The combined file is put beside the case of the sample, by a path that goes into
the case and up again. The fragments of the case are in it, and it is not in itself. -/
theorem writeCombined_complete_sample :
    sampleFiles.WellFormed ∧ sampleFiles.Writable ⟨"/r/a/../c.go"⟩ ∧
      sampleFiles.IsAcyclic ⟨"/r"⟩ ∧ ∃ written combined notices paths,
        writeCombined sampleFiles ⟨"/r"⟩ ⟨"/r/a/../c.go"⟩ "go" =
          (written, ⟨.ok combined, notices⟩) ∧
        combined.IsOf written ⟨"/r"⟩ ⟨"/r/a/../c.go"⟩ "go" paths ∧
        (∀ f ∈ sampleCase.fragments, f.path ∈ paths) ∧ ⟨"/r/c.go"⟩ ∉ paths ∧
        writeCombined written ⟨"/r"⟩ ⟨"/r/a/../c.go"⟩ "go" =
          (written, ⟨.ok combined, notices⟩) := by
  have hwf : sampleFiles.WellFormed := isTree_sample.wellFormed
  obtain ⟨hparents, hlocate, hstraight⟩ := missing_beside_sample
  have hout : sampleFiles.Writable ⟨"/r/a/../c.go"⟩ :=
    writable_of_missing hparents hlocate rfl rfl
  obtain ⟨written, combined, notices, paths, hwritten, hisOf, -, -, htrees, hagain, -⟩ :=
    writeCombined_complete hwf rfl hout ⟨"/r"⟩ "go"
  obtain ⟨written', _, _, data, hwritten', hwrite⟩ :=
    writeCombined_of_missing hparents hlocate rfl rfl ⟨"/r"⟩ "go"
  obtain rfl : written = written' := congrArg Prod.fst (hwritten.symm.trans hwritten')
  have hcanonical : ∀ p, sampleFiles.locate true p = .ok ⟨["r", "c.go"], none⟩ →
      written.canonical p = .ok ["r", "c.go"] := fun p hp => by
    rw [canonical, target?, locate_of_write hp hwrite (by simp)]
    rfl
  refine ⟨hwf, hout, isTree_sample.isAcyclic, written, combined, notices, paths, hwritten, hisOf,
    fun f hf => ?_, fun hmem => ?_, hagain⟩
  · obtain ⟨findings, hsurvey, hcases⟩ := survey_sample
    have hfragments : (Discovery.ofFindings findings).fragments = sampleCase.fragments := by
      rw [Discovery.fragments, hcases, List.flatMap_singleton]
    refine (htrees sampleFiles List.mem_cons_self isTree_sample.isAcyclic).2 _
      (congrArg (Except.map Discovery.ofFindings) hsurvey) f (hfragments ▸ hf) ?_
    obtain ⟨name, htarget⟩ : ∃ name,
        sampleFiles.target? f.path = .ok (["r", "a", name], .file [] .plain) := by
      rcases List.mem_pair.mp hf with rfl | rfl
      · exact ⟨"w.go", target?_sample (by decide)⟩
      · exact ⟨"x.go", target?_sample (by decide)⟩
    have hgrows : Grows sampleFiles written :=
      .of_write hwrite (.inl (node_eq_of_locate hlocate).symm)
    obtain ⟨node, -, htarget'⟩ := hgrows.target? htarget
    rw [hcanonical _ hlocate, canonical, htarget']
    exact fun heq => absurd (Except.ok.inj heq) (by simp)
  · exact ((hisOf.mem_iff _).mp hmem).2
      ((hcanonical _ hstraight).trans (hcanonical _ hlocate).symm)

end RaceSkeletons
