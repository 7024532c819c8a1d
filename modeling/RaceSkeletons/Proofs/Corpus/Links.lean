import RaceSkeletons.Proofs.Corpus.Contents
import RaceSkeletons.Proofs.Corpus.FileName
import RaceSkeletons.Proofs.Corpus.InReach
import RaceSkeletons.Proofs.FileSystem.Reach

/-!
# The root after normalization

Normalization renames regular files, and links to them; it never moves a
directory. But a rename replaces what it takes for missing, and a link that
needs more links followed than the system allows is taken for missing. So a
link can be lost, if it bears a name that normalization gives.

What is left of a file system (`FileSystem.IsRenamed`) holds of every state
between two renames. A root that is a directory without the links that can be
lost is therefore the same directory afterwards (`target?_normalizeCorpus`).
-/

namespace RaceSkeletons

open RaceSkeletons.Path (IsEntryName)

variable {fs fs' before : FileSystem} {root p dir : Path} {name extension : String}
  {location : Location} {node : Node} {order : EntryOrder}

/-- A link with a name that normalization could give to a file. -/
def Entry.isPlainLink (entry : Entry) : Bool :=
  match entry.node, entry.location.getLast? with
  | .link _, some name => IsPlainName name
  | _, _ => false

namespace FileSystem

/-! ## The files of a walk -/

/-- A file as a walk meets it: an entry of a directory that leads to a regular
file. -/
def IsVisited (fs : FileSystem) (p : Path) : Prop :=
  fs.isFile p = true ∧
    ∃ (dir : Path) (name : String), p = dir.join name ∧ dir.text ≠ "" ∧ IsEntryName name

theorem WellFormed.isVisited_of_mem (hwf : fs.WellFormed) (hroot : fs.isDir root = true)
    (h : p ∈ fs.filesInReach root) : fs.IsVisited p := by
  obtain ⟨hwalk, hfile⟩ := mem_filesInReach.mp h
  obtain ⟨dir, name, -, heq, hdir, hname, -, -⟩ :=
    (encloses_all fs root).liesIn_of_walk hwf hroot hwalk hfile
  exact ⟨hfile, dir, name, heq, hdir, hname⟩

/-! ## What renames leave -/

/-- What is left of the file system `before` while its files are renamed: all
directories; every link, unless it bears a name that a file can be given, or
leads to no directory; and no other link to a directory. -/
structure IsRenamed (before fs : FileSystem) : Prop where
  terms : fs.toTerms = before.toTerms
  isDirAt : ∀ location, fs.isDirAt location = before.isDirAt location
  stays : ∀ location name target, before.nodeAt? (location ++ [name]) = some (.link target) →
    fs.nodeAt? (location ++ [name]) = some (.link target) ∨ IsPlainName name ∨
      ¬ PointsToDir before location target
  comes : ∀ location name target, fs.nodeAt? (location ++ [name]) = some (.link target) →
    before.nodeAt? (location ++ [name]) = some (.link target) ∨
      ¬ PointsToDir before location target
  closed : fs.Closed

theorem Closed.isRenamed (h : fs.Closed) : IsRenamed fs fs :=
  ⟨rfl, fun _ => rfl, fun _ _ _ hlink => .inl hlink, fun _ _ _ hlink => .inl hlink, h⟩

theorem IsRenamed.workingDir (h : IsRenamed before fs) : fs.workingDir = before.workingDir :=
  congrArg Terms.workingDir h.terms

theorem IsRenamed.startOf_eq (h : IsRenamed before fs) (p : Path) :
    fs.startOf p = before.startOf p := by
  rw [startOf, startOf, h.workingDir]

theorem IsRenamed.leads (h : IsRenamed before fs) {links : Nat} {current : Location}
    {names : List String} (hleads : Leads fs true links current names ⟨location, some .dir⟩) :
    Leads before true links current names ⟨location, some .dir⟩ := by
  refine hleads.keepDir rfl (fun l hdir => h.isDirAt l ▸ hdir) fun l name target hlink => ?_
  exact (h.comes l name target hlink).imp_right .inr

theorem IsRenamed.opens (h : IsRenamed before fs) (hopens : fs.Opens p location) :
    before.Opens p location := by
  rw [Opens, ← h.startOf_eq]
  exact h.leads hopens

/-- What is renamed is no directory, and no link to one. -/
theorem IsRenamed.source (h : IsRenamed before fs) {source : Location}
    (hfile : before.isFile (dir.join name) = true) (hname : IsEntryName name)
    (hlocate : fs.locate false (dir.join name) = .ok ⟨source, some node⟩) :
    ∃ around, fs.Opens dir around ∧ source = around ++ [name] ∧ node ≠ .dir ∧
      ∀ target, node = .link target → ¬ PointsToDir before around target := by
  obtain ⟨location, file, htarget, hregular⟩ := isFile_iff.mp hfile
  obtain ⟨hp, hleads⟩ := target?_eq_ok_iff.mp htarget
  obtain ⟨-, around, hopens, looks, left, -, hlast⟩ := opens_of_locate_join hname hlocate
  obtain ⟨-, hsource⟩ := hlast.location_of_last hname
  obtain rfl : source = around ++ [name] := hsource
  refine ⟨around, hopens, rfl, ?_, ?_⟩
  · rintro rfl
    obtain ⟨-, hway⟩ := locate_eq_ok_iff.mp hlocate
    have hway' := h.leads (hway.following nofun)
    rw [h.startOf_eq] at hway'
    obtain ⟨-, heq⟩ := Place.mk.inj (hway'.unique hleads)
    rw [← Option.some.inj heq] at hregular
    cases hregular
  · rintro target rfl hpoints
    have hlink : fs.nodeAt? (around ++ [name]) = some (.link target) := hlast.node_eq.symm
    rcases h.comes around name target hlink with hbefore | hno
    · -- before, the link led to the file, so it did not lead to a directory
      obtain ⟨-, around', hopens', -, left', -, hlast'⟩ :=
        opens_of_locate_join hname (locate_eq_ok_iff.mpr ⟨hp, hleads⟩)
      obtain rfl := (h.opens hopens).unique hopens'
      obtain ⟨links, directory, hdirectory⟩ := hpoints
      cases hlast' with
      | stay _ _ => exact hname.notCurrent rfl
      | up _ _ => exact hname.notParent rfl
      | unfollowed _ _ keep => cases keep
      | follow _ node _ more =>
          rw [hbefore] at node
          obtain rfl := Node.link.inj (Option.some.inj node)
          rw [List.append_nil] at more
          obtain ⟨-, heq⟩ := Place.mk.inj (hdirectory.unique more)
          rw [← Option.some.inj heq] at hregular
          cases hregular
      | enter _ node noLink _ =>
          rw [hbefore] at node
          exact noLink target (Option.some.inj node).symm
    · exact hno hpoints

/-- A name that can be walked through and leads to no directory leads to an
entry. -/
theorem Closed.location_of_last (hclosed : fs.Closed) {left : Nat} {around target : Location}
    {found : Option Node} (hfound : found ≠ some .dir)
    (h : Leads fs false left around [name] ⟨target, found⟩) : target = around ++ [name] := by
  cases h with
  | stay isDir more =>
      cases more
      exact absurd (beq_iff_eq.mp isDir) hfound
  | up isDir more =>
      cases more
      exact absurd (beq_iff_eq.mp (hclosed.isDirAt_dropLast isDir)) hfound
  | missing _ _ => rfl
  | unfollowed _ _ _ => rfl
  | follow _ _ goesOn _ => exact absurd ⟨rfl, rfl⟩ goesOn
  | enter _ _ _ more =>
      cases more
      rfl

theorem IsRenamed.move (h : IsRenamed before fs) {around : Location} {other : String}
    (hmove : IsMove fs fs' (around ++ [name]) (around ++ [other]) node) (hother : IsPlainName other)
    (hdir : fs.isDirAt around = true)
    (hlink : ∀ target, node = .link target → ¬ PointsToDir before around target) :
    IsRenamed before fs' where
  terms := hmove.terms.trans h.terms
  isDirAt location := hmove.isDirAt.trans (h.isDirAt location)
  stays := by
    intro location link target hbefore
    rcases h.stays location link target hbefore with hnow | hplain | hno
    · by_cases htarget : location ++ [link] = around ++ [other]
      · obtain ⟨-, hsame⟩ := List.append_inj' htarget rfl
        rw [List.singleton_inj.mp hsame]
        exact .inr (.inl hother)
      · by_cases hsource : location ++ [link] = around ++ [name]
        · obtain ⟨rfl, -⟩ := List.append_inj' hsource rfl
          rw [hsource, hmove.atSource] at hnow
          exact .inr (.inr (hlink target (Option.some.inj hnow)))
        · rw [hmove.nodeAt?_of_ne htarget hsource]
          exact .inl hnow
    · exact .inr (.inl hplain)
    · exact .inr (.inr hno)
  comes := by
    intro location link target hnow
    by_cases htarget : location ++ [link] = around ++ [other]
    · obtain ⟨rfl, -⟩ := List.append_inj' htarget rfl
      rw [htarget, hmove.atTarget] at hnow
      exact .inr (hlink target (Option.some.inj hnow))
    · rw [hmove.nodeAt?, if_neg htarget] at hnow
      split at hnow
      · cases hnow
      · exact h.comes location link target hnow
  closed := hmove.closed h.closed rfl hdir

/-- Renaming a file does nothing, or it moves an entry within its directory to a
normal name. -/
theorem IsRenamed.renameFile_cases (h : IsRenamed before fs)
    (hslash : '/' ∉ extension.toList) (hfile : before.isFile (dir.join name) = true)
    (hdir : dir.text ≠ "") (hname : IsEntryName name) :
    (renameFile extension fs (dir.join name)).1 = fs ∨
      ∃ around other node, before.Opens dir around ∧ fs.isDirAt around = true ∧
        IsPlainName other ∧
        IsMove fs (renameFile extension fs (dir.join name)).1 (around ++ [name]) (around ++ [other])
          node ∧
        ∀ target, node = .link target → ¬ PointsToDir before around target := by
  simp only [RaceSkeletons.renameFile]
  split
  · exact .inl rfl
  · split
    · exact .inl rfl
    · split
      · next renamed hrename =>
          obtain ⟨source, node, target, found, hsource, htarget, hfound, hmove⟩ :=
            isMove_of_rename hrename
          obtain ⟨around, hopens, rfl, hnode, hlink⟩ := h.source hfile hname hsource
          obtain ⟨beside, hbeside, hnormal⟩ := Path.withFileName_join hdir hname
          rw [normalPath, hnormal, Path.fileName_join dir hname] at htarget
          obtain ⟨around', hopens', left, -, hlast⟩ := opens_of_locate_step
            (normalName_ne_empty name extension) (normalName_noSlash hslash hname.noSlash) htarget
          obtain rfl := (hopens.of_isAround hbeside).unique hopens'
          obtain rfl := h.closed.location_of_last hfound hlast
          rcases hmove hnode with ⟨-, rfl⟩ | ⟨-, hmove⟩
          · exact .inl rfl
          · exact .inr ⟨around, normalName name extension, node, h.opens hopens, hopens.isDirAt,
              isPlainName_normalName name extension, hmove, hlink⟩
      · exact .inl rfl

theorem IsRenamed.renameFile (h : IsRenamed before fs)
    (hslash : '/' ∉ extension.toList) (hp : before.IsVisited p) :
    IsRenamed before (renameFile extension fs p).1 := by
  obtain ⟨hfile, dir, name, rfl, hdir, hname⟩ := hp
  rcases h.renameFile_cases hslash hfile hdir hname with
    hsame | ⟨around, other, node, -, hisDir, hother, hmove, hlink⟩
  · rw [hsame]
    exact h
  · exact h.move hmove hother hisDir hlink

theorem IsRenamed.renameEach (h : IsRenamed before fs)
    (hslash : '/' ∉ extension.toList) {files : List Path}
    (hfiles : ∀ p ∈ files, before.IsVisited p) :
    IsRenamed before (renameEach extension fs files).1 := by
  induction files generalizing fs with
  | nil => exact h
  | cons p rest ih =>
      rw [RaceSkeletons.renameEach]
      exact ih (h.renameFile hslash (hfiles p List.mem_cons_self))
        fun q hq => hfiles q (List.mem_cons_of_mem p hq)

theorem WellFormed.isRenamed_renameFiles (hwf : fs.WellFormed) (hclosed : fs.Closed)
    (hslash : '/' ∉ extension.toList) (hroot : fs.isDir root = true) :
    IsRenamed fs (renameFiles fs root extension).1 := by
  rw [(hwf.renameFiles_eq root extension).1]
  exact hclosed.isRenamed.renameEach hslash fun _ hp => hwf.isVisited_of_mem hroot hp

/-! ## The root -/

/-- The file system without the links that a rename could replace. -/
def withoutPlainLinks (fs : FileSystem) : FileSystem :=
  { fs with entries := fs.entries.filter fun entry => !entry.isPlainLink }

theorem WellFormed.nodeAt?_withoutPlainLinks (hwf : fs.WellFormed)
    (h : fs.withoutPlainLinks.nodeAt? location = some node) :
    fs.nodeAt? location = some node ∧
      ∀ around name target, location = around ++ [name] → node = .link target →
        ¬ IsPlainName name := by
  by_cases hne : location = []
  · subst hne
    rw [nodeAt?_nil] at h
    obtain rfl := Option.some.inj h
    exact ⟨nodeAt?_nil fs, fun _ _ _ _ heq => nomatch heq⟩
  · obtain ⟨entry, hentry, rfl, rfl⟩ := exists_entry_of_nodeAt? hne h
    obtain ⟨hmem, hkept⟩ := List.mem_filter.mp hentry
    refine ⟨hwf.nodeAt?_of_mem hmem hne, fun around name target hlocation hnode hplain => ?_⟩
    have hlink : entry.isPlainLink = true := by
      rw [Entry.isPlainLink, hnode, hlocation, List.getLast?_concat]
      exact decide_eq_true hplain
    rw [hlink] at hkept
    cases hkept

/-- A root that is a directory without the links that bear normal names is
the same directory with them, and after the renames. -/
theorem WellFormed.target?_renameFiles (hwf : fs.WellFormed) (hclosed : fs.Closed)
    (hslash : '/' ∉ extension.toList)
    (hroot : fs.withoutPlainLinks.target? root = .ok (location, .dir)) :
    fs.target? root = .ok (location, .dir) ∧
      (renameFiles fs root extension).1.target? root = .ok (location, .dir) := by
  have hdirs : ∀ location, fs.withoutPlainLinks.isDirAt location = true →
      fs.isDirAt location = true := fun location hdir =>
    beq_iff_eq.mpr (hwf.nodeAt?_withoutPlainLinks (beq_iff_eq.mp hdir)).1
  have hlinks : ∀ current name target,
      fs.withoutPlainLinks.nodeAt? (current ++ [name]) = some (.link target) →
        fs.nodeAt? (current ++ [name]) = some (.link target) ∧ ¬ IsPlainName name := by
    intro current name target hlink
    obtain ⟨hnode, hplain⟩ := hwf.nodeAt?_withoutPlainLinks hlink
    exact ⟨hnode, hplain current name target rfl rfl⟩
  have hfirst : fs.target? root = .ok (location, .dir) :=
    target?_keep hroot rfl hdirs fun current name target hlink =>
      .inl (hlinks current name target hlink).1
  have hrenamed := hwf.isRenamed_renameFiles hclosed hslash (isDir_iff.mpr ⟨location, hfirst⟩)
  refine ⟨hfirst, target?_keep hroot hrenamed.workingDir (fun location hdir => ?_)
    fun current name target hlink => ?_⟩
  · rw [hrenamed.isDirAt]
    exact hdirs location hdir
  · obtain ⟨hnode, hplain⟩ := hlinks current name target hlink
    rcases hrenamed.stays current name target hnode with hstays | hgiven | hno
    · exact .inl hstays
    · exact absurd hgiven hplain
    · refine .inr (.inl ?_)
      rintro ⟨links, directory, hleads⟩
      refine hno ⟨links, directory, hleads.keepDir rfl hdirs ?_⟩
      exact fun current name target hlink => .inl (hlinks current name target hlink).1

theorem IsRewrite.target?_of_dir (h : IsRewrite fs fs')
    (hroot : fs.target? root = .ok (location, .dir)) :
    fs'.target? root = .ok (location, .dir) := by
  refine target?_keep hroot h.workingDir (fun location hdir => ?_) fun _ _ _ hlink => ?_
  · rw [h.isDirAt]
    exact hdir
  · exact .inl (h.link_iff.mpr hlink)

theorem IsRewrite.closed (h : IsRewrite fs fs') (hclosed : fs.Closed) : fs'.Closed := by
  refine closed_of_isDirAt fun location name hnode => ?_
  rw [h.isDirAt]
  exact hclosed.isDirAt fun hnone => hnode (h.nodeAt?_eq_none_iff.mpr hnone)

/-- Normalization keeps a file system closed. -/
theorem WellFormed.closed_normalizeCorpus (hwf : fs.WellFormed) (hclosed : fs.Closed)
    (hslash : '/' ∉ extension.toList) (hroot : fs.isDir root = true) (host : Host)
    (checker : SyntaxChecker) :
    (RaceSkeletons.normalizeCorpus host checker fs root extension).1.Closed := by
  rw [RaceSkeletons.normalizeCorpus]
  exact (isRewrite_normalizeEach host checker _ _).closed
    (hwf.isRenamed_renameFiles hclosed hslash hroot).closed

theorem WellFormed.terms_normalizeCorpus (hwf : fs.WellFormed) (hclosed : fs.Closed)
    (hslash : '/' ∉ extension.toList) (hroot : fs.isDir root = true) (host : Host)
    (checker : SyntaxChecker) :
    (RaceSkeletons.normalizeCorpus host checker fs root extension).1.toTerms = fs.toTerms := by
  rw [RaceSkeletons.normalizeCorpus]
  exact (isRewrite_normalizeEach host checker _ _).terms.trans
    (hwf.isRenamed_renameFiles hclosed hslash hroot).terms

/-- The same for all of normalization: contents do not matter to paths. -/
theorem WellFormed.target?_normalizeCorpus (hwf : fs.WellFormed) (hclosed : fs.Closed)
    (hslash : '/' ∉ extension.toList)
    (hroot : fs.withoutPlainLinks.target? root = .ok (location, .dir)) (host : Host)
    (checker : SyntaxChecker) :
    fs.target? root = .ok (location, .dir) ∧
      (RaceSkeletons.normalizeCorpus host checker fs root extension).1.target? root =
        .ok (location, .dir) := by
  obtain ⟨hfirst, hrenamed⟩ := hwf.target?_renameFiles hclosed hslash hroot
  rw [RaceSkeletons.normalizeCorpus]
  exact ⟨hfirst, (isRewrite_normalizeEach host checker _ _).target?_of_dir hrenamed⟩

end FileSystem

end RaceSkeletons
