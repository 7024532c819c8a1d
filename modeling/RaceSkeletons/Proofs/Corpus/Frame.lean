import Mathlib
import RaceSkeletons.Proofs.Corpus.Idempotence
import RaceSkeletons.Proofs.Corpus.Links

/-!
# What normalization leaves alone

Normalization follows links, so it can rename and write files that do not lie
below its root. It touches nothing beyond a set of locations that a walk of the
root cannot leave (`normalizeCorpus_spares`).

The set is that of the walk before the renames, though the contents are written
after them, on another walk. The second walk leads no further
(`FileSystem.RenamesWithin.encloses`): the renames leave every directory in its
place, and every link in its directory.

A path that leads out of the set leads to the same location afterwards
(`FileSystem.KeepsWays.locate`), unless it follows a link in the set that a
rename could have replaced.
-/

namespace RaceSkeletons

open RaceSkeletons.Path (IsEntryName)

variable {fs fs' before : FileSystem} {within : Location → Prop} {root p dir : Path}
  {name extension : String} {location around : Location} {node : Node}

namespace FileSystem

/-! ## Renames within a set of locations -/

/-- What is left of the file system `before` while files in directories of a set
of locations are renamed: nothing changes beyond the set, and every link stays
in its directory. -/
structure RenamesWithin (within : Location → Prop) (before fs : FileSystem) : Prop where
  isRenamed : IsRenamed before fs
  spares : ∀ location, ¬ within location → fs.nodeAt? location = before.nodeAt? location
  origin : ∀ location name target, fs.nodeAt? (location ++ [name]) = some (.link target) →
    before.nodeAt? (location ++ [name]) = some (.link target) ∨
      ∃ old, within (location ++ [old]) ∧ before.nodeAt? (location ++ [old]) = some (.link target)

theorem Closed.renamesWithin (h : fs.Closed) (within : Location → Prop) :
    RenamesWithin within fs fs :=
  ⟨h.isRenamed, fun _ _ => rfl, fun _ _ _ hlink => .inl hlink⟩

namespace RenamesWithin

variable (h : RenamesWithin within before fs)

include h

theorem move {other : String}
    (hmove : IsMove fs fs' (around ++ [name]) (around ++ [other]) node)
    (hrenamed : IsRenamed before fs') (hwithin : ∀ name, within (around ++ [name])) :
    RenamesWithin within before fs' where
  isRenamed := hrenamed
  spares := by
    intro location hout
    have htarget : location ≠ around ++ [other] := fun heq => hout (heq ▸ hwithin other)
    have hsource : location ≠ around ++ [name] := fun heq => hout (heq ▸ hwithin name)
    rw [hmove.nodeAt?_of_ne htarget hsource]
    exact h.spares location hout
  origin := by
    intro location link target hlink
    by_cases htarget : location ++ [link] = around ++ [other]
    · obtain ⟨rfl, -⟩ := List.append_inj' htarget rfl
      rw [htarget, hmove.atTarget] at hlink
      obtain rfl := Option.some.inj hlink
      rcases h.origin location name target hmove.atSource with hsame | hold
      · exact .inr ⟨name, hwithin name, hsame⟩
      · exact .inr hold
    · rw [hmove.nodeAt?, if_neg htarget] at hlink
      split at hlink
      · cases hlink
      · exact h.origin location link target hlink

theorem renameFile (hslash : '/' ∉ extension.toList)
    (hwithin : Encloses before root within) (hfile : before.isFile p = true)
    (hlies : before.LiesIn within p) :
    RenamesWithin within before (renameFile extension fs p).1 := by
  obtain ⟨dir, name, location, rfl, hdir, hname, hopens, hlocation⟩ := hlies
  rcases h.isRenamed.renameFile_cases hslash hfile hdir hname with
    hsame | ⟨around, other, node, hopens', hisDir, hother, hmove, hlink⟩
  · rw [hsame]
    exact h
  · obtain rfl := hopens'.unique hopens
    refine h.move hmove (h.isRenamed.move hmove hother hisDir hlink) fun name => ?_
    exact hwithin.entry around name hlocation hopens.isDirAt

theorem renameEach (hslash : '/' ∉ extension.toList)
    (hwithin : Encloses before root within) {files : List Path}
    (hfiles : ∀ p ∈ files, before.isFile p = true ∧ before.LiesIn within p) :
    RenamesWithin within before (renameEach extension fs files).1 := by
  induction files generalizing fs with
  | nil => exact h
  | cons p rest ih =>
      obtain ⟨hfile, hlies⟩ := hfiles p (by simp)
      rw [RaceSkeletons.renameEach]
      exact ih (h.renameFile hslash hwithin hfile hlies) fun q hq => hfiles q (by simp [hq])

/-! ## The second walk -/

/-- What names lead to after the renames is in the set, or they led to the same
location before. -/
theorem leads (hwithin : Encloses before root within) {links : Nat} {current : Location}
    {names : List String} {place : Place} (hleads : Leads fs true links current names place) :
    within place.location ∨
      Leads before true links current names ⟨place.location, before.nodeAt? place.location⟩ := by
  have hdirs : ∀ location, before.isDirAt location = fs.isDirAt location :=
    fun location => (h.isRenamed.isDirAt location).symm
  have hlooks : ∀ {current name}, Looks fs current name → Looks before current name :=
    fun looks => ⟨(hdirs _).trans looks.isDir, looks.notCurrent, looks.notParent, looks.short⟩
  induction hleads with
  | here => exact .inr .here
  | stay isDir _ ih => exact ih.imp_right (.stay ((hdirs _).trans isDir))
  | up isDir _ ih => exact ih.imp_right (.up ((hdirs _).trans isDir))
  | @missing _ current name looks hnode =>
      by_cases hin : within (current ++ [name])
      · exact .inl hin
      · have hnone : before.nodeAt? (current ++ [name]) = none := (h.spares _ hin).symm.trans hnode
        show _ ∨ Leads before true _ _ _ ⟨current ++ [name], before.nodeAt? (current ++ [name])⟩
        rw [hnone]
        exact .inr (.missing (hlooks looks) hnone)
  | unfollowed _ _ keep => cases keep
  | @follow _ current name rest target place looks hnode goesOn more ih =>
      rcases ih with hin | hmore
      · exact .inl hin
      rcases h.origin current name target hnode with hsame | ⟨old, hold, hlink⟩
      · exact .inr (.follow (hlooks looks) hsame goesOn hmore)
      by_cases hrest : rest = []
      · subst hrest
        rw [List.append_nil] at hmore
        exact .inl (hwithin.link _ _ _ _ _ _ hold hlink hmore)
      · -- a link that was renamed leads to no directory, so nothing follows it
        rcases h.isRenamed.comes current name target hnode with hsame | hno
        · exact .inr (.follow (hlooks looks) hsame goesOn hmore)
        · obtain ⟨left, -, between, hbetween, -⟩ := hmore.split hrest
          exact absurd ⟨_, between, hbetween⟩ hno
  | @enter links current name rest found place looks hnode noLink more ih =>
      by_cases hrest : rest = []
      · subst hrest
        have hend : place.location = current ++ [name] := more.of_dots (by simp)
        rw [hend]
        by_cases hin : within (current ++ [name])
        · exact .inl hin
        · have hsame : before.nodeAt? (current ++ [name]) = some found :=
            (h.spares _ hin).symm.trans hnode
          exact .inr (.enter (hlooks looks) hsame noLink .here)
      · obtain ⟨first, later, rfl⟩ := List.exists_cons_of_ne_nil hrest
        have hdir : before.nodeAt? (current ++ [name]) = some .dir :=
          beq_iff_eq.mp ((hdirs _).trans more.isDirAt_of_cons)
        exact ih.imp_right (.enter (hlooks looks) hdir (by simp))

/-- A walk after the renames leads no further than one before them. -/
theorem encloses (hwithin : Encloses before root within) : Encloses fs root within where
  root := by
    intro location node htarget
    obtain ⟨hp, hleads⟩ := target?_eq_ok_iff.mp htarget
    rcases h.leads hwithin hleads with hin | hbefore
    · exact hin
    · by_contra hout
      have hsame := h.spares location hout
      rw [← hsame, ← hleads.node_eq, h.isRenamed.startOf_eq] at hbefore
      exact hout (hwithin.root location node (target?_eq_ok_iff.mpr ⟨hp, hbefore⟩))
  entry dir name hdir hisDir := hwithin.entry dir name hdir (h.isRenamed.isDirAt dir ▸ hisDir)
  link := by
    intro dir name target links location found hhere hnode hleads
    rcases h.leads hwithin hleads with hin | hbefore
    · exact hin
    rcases h.origin dir name target hnode with hsame | ⟨old, hold, hlink⟩
    · exact hwithin.link _ _ _ _ _ _ hhere hsame hbefore
    · exact hwithin.link _ _ _ _ _ _ hold hlink hbefore

end RenamesWithin

theorem WellFormed.renamesWithin_renameFiles (hwf : fs.WellFormed) (hclosed : fs.Closed)
    (hslash : '/' ∉ extension.toList) (hroot : fs.isDir root = true)
    (hwithin : Encloses fs root within) :
    RenamesWithin within fs (renameFiles fs root extension).1 := by
  rw [(hwf.renameFiles_eq root extension).1]
  refine (hclosed.renamesWithin within).renameEach hslash hwithin fun p hp => ?_
  obtain ⟨hwalk, hfile⟩ := mem_filesInReach.mp hp
  exact ⟨hfile, hwithin.liesIn_of_walk hwf hroot hwalk hfile⟩

/-! ## Contents -/

theorem IsRewrite.leadsInto (h : IsRewrite fs fs') (hinto : fs.LeadsInto within p) :
    fs'.LeadsInto within p := by
  intro location node htarget
  obtain ⟨node', -, hbefore⟩ := h.symm.grows.target? htarget
  exact hinto location node' hbefore

end FileSystem

open FileSystem

theorem normalizeEach_spares (host : Host) (checker : SyntaxChecker) {files : List Path}
    (hfiles : ∀ p ∈ files, fs.LeadsInto within p) (hout : ¬ within location) :
    (normalizeEach host checker fs files).1.nodeAt? location = fs.nodeAt? location := by
  induction files generalizing fs with
  | nil => rfl
  | cons p rest ih =>
      have hrewrite := isRewrite_normalizeFragment host checker fs p
      have hrest : ∀ q ∈ rest, (normalizeFragment host checker fs p).1.LeadsInto within q :=
        fun q hq => hrewrite.leadsInto (hfiles q (by simp [hq]))
      rw [normalizeEach]
      show (normalizeEach host checker (normalizeFragment host checker fs p).1 rest).1.nodeAt?
        location = _
      rw [ih hrest]
      rcases normalizeFragment_cases host checker fs p with
        hsame | ⟨place, bytes, content, mode, htarget, hwrite⟩
      · rw [hsame]
      · refine hwrite.nodeAt?_of_ne ?_
        rintro rfl
        exact hout (hfiles p (by simp) _ _ htarget)

/-- Normalization changes nothing beyond a set of locations that a walk of its
root does not leave. -/
theorem normalizeCorpus_spares (hwf : fs.WellFormed) (hclosed : fs.Closed)
    (hslash : '/' ∉ extension.toList) (hroot : fs.isDir root = true)
    (hwithin : Encloses fs root within) (host : Host) (checker : SyntaxChecker)
    (hout : ¬ within location) :
    (normalizeCorpus host checker fs root extension).1.nodeAt? location = fs.nodeAt? location := by
  have hrenames := hwf.renamesWithin_renameFiles hclosed hslash hroot hwithin
  have hrenamed : (renameFiles fs root extension).1.WellFormed := hwf.renameEach extension _
  have hafter := hrenames.encloses hwithin
  -- the root is a directory after the renames or not, its walk stays within the set
  have hfiles : ∀ p ∈ fragmentsBelow (renameFiles fs root extension).1 root extension,
      (renameFiles fs root extension).1.LeadsInto within p := fun p hp =>
    (hafter.of_walk hrenamed (mem_fragmentsBelow.mp hp).1).1
  rw [normalizeCorpus]
  exact (normalizeEach_spares host checker hfiles hout).trans (hrenames.spares location hout)

/-! ## Paths that lead out of the set -/

namespace FileSystem

open Classical in
/-- The file system without the links of a set of locations that a rename could
replace. -/
noncomputable def withoutPlainLinksIn (fs : FileSystem) (within : Location → Prop) : FileSystem :=
  { fs with
    entries := fs.entries.filter fun entry => !(entry.isPlainLink && within entry.location) }

theorem WellFormed.nodeAt?_withoutPlainLinksIn (hwf : fs.WellFormed)
    (h : (fs.withoutPlainLinksIn within).nodeAt? location = some node) :
    fs.nodeAt? location = some node ∧
      ∀ around name target, location = around ++ [name] → node = .link target →
        within location → ¬ IsPlainName name := by
  by_cases hne : location = []
  · subst hne
    rw [nodeAt?_nil] at h
    obtain rfl := Option.some.inj h
    exact ⟨nodeAt?_nil fs, by simp⟩
  · obtain ⟨entry, hentry, rfl, rfl⟩ := exists_entry_of_nodeAt? hne h
    obtain ⟨hmem, hkept⟩ := List.mem_filter.mp hentry
    refine ⟨hwf.nodeAt?_of_mem hmem hne, ?_⟩
    intro around name target hlocation hnode hin hplain
    have hlink : entry.isPlainLink = true := by
      rw [Entry.isPlainLink, hnode, hlocation, List.getLast?_concat]
      exact decide_eq_true hplain
    simp [hlink, hin] at hkept

theorem nodeAt?_of_withoutPlainLinksIn (hout : ¬ within location) :
    (fs.withoutPlainLinksIn within).nodeAt? location = fs.nodeAt? location := by
  by_cases hne : location = []
  · rw [hne, nodeAt?_nil, nodeAt?_nil]
  · rw [nodeAt?_of_ne_nil _ hne, nodeAt?_of_ne_nil fs hne, withoutPlainLinksIn, List.find?_filter]
    congr 2
    funext entry
    by_cases hentry : entry.location = location
    · simp [hentry, hout]
    · simp [hentry]

theorem withoutPlainLinksIn_of_entries (h : ∀ entry ∈ fs.entries, entry.isPlainLink = false) :
    fs.withoutPlainLinksIn within = fs := by
  rw [withoutPlainLinksIn, List.filter_eq_self.mpr]
  intro entry hentry
  simp [h entry hentry]

/-- `fs'` keeps the ways of `fs` that lead out of a set of locations: directories
stay, nothing beyond the set goes or is changed, and a link to a directory is
lost at most if it bears a plain name. -/
structure KeepsWays (within : Location → Prop) (fs fs' : FileSystem) : Prop where
  isDirAt : ∀ location, fs.isDirAt location = true → fs'.isDirAt location = true
  spares : ∀ location, ¬ within location → fs'.nodeAt? location = fs.nodeAt? location ∨
    fs.nodeAt? location = none ∧ fs'.nodeAt? location = some .dir
  stays : ∀ location name target, fs.nodeAt? (location ++ [name]) = some (.link target) →
    PointsToDir fs location target → ¬ IsPlainName name →
      fs'.nodeAt? (location ++ [name]) = some (.link target)
  terms : fs'.toTerms = fs.toTerms

theorem KeepsWays.workingDir (h : KeepsWays within fs fs') : fs'.workingDir = fs.workingDir :=
  congrArg Terms.workingDir h.terms

theorem KeepsWays.nodeAt?_eq (h : KeepsWays within fs fs') (hout : ¬ within location)
    (hnode : fs.nodeAt? location = some node) : fs'.nodeAt? location = some node := by
  rcases h.spares location hout with hsame | ⟨hnone, -⟩
  · exact hsame.trans hnode
  · rw [hnode] at hnone
    cases hnone

/-- Names that lead out of the set, past no link in it that a rename could
replace, lead to the same location afterwards. -/
theorem KeepsWays.leads (h : KeepsWays within fs fs') (hwf : fs.WellFormed)
    (hlinks : fs.HoldsLinks within) {links : Nat} {current : Location} {names : List String}
    {place : Place}
    (hleads : Leads (fs.withoutPlainLinksIn within) true links current names place)
    (hout : ¬ within place.location) :
    Leads fs true links current names ⟨place.location, fs.nodeAt? place.location⟩ ∧
      Leads fs' true links current names ⟨place.location, fs'.nodeAt? place.location⟩ := by
  have hdirs : ∀ {location}, (fs.withoutPlainLinksIn within).isDirAt location = true →
      fs.isDirAt location = true := fun hdir =>
    beq_iff_eq.mpr (hwf.nodeAt?_withoutPlainLinksIn (beq_iff_eq.mp hdir)).1
  have hlooks : ∀ {current name}, Looks (fs.withoutPlainLinksIn within) current name →
      Looks fs current name :=
    fun looks => ⟨hdirs looks.isDir, looks.notCurrent, looks.notParent, looks.short⟩
  have hlater : ∀ {current name}, Looks fs current name → Looks fs' current name :=
    fun looks => ⟨h.isDirAt _ looks.isDir, looks.notCurrent, looks.notParent, looks.short⟩
  induction hleads with
  | here => exact ⟨.here, .here⟩
  | stay isDir _ ih =>
      obtain ⟨hfirst, hlast⟩ := ih hout
      exact ⟨.stay (hdirs isDir) hfirst, .stay (h.isDirAt _ (hdirs isDir)) hlast⟩
  | up isDir _ ih =>
      obtain ⟨hfirst, hlast⟩ := ih hout
      exact ⟨.up (hdirs isDir) hfirst, .up (h.isDirAt _ (hdirs isDir)) hlast⟩
  | @missing _ current name looks hnode =>
      have hnone : fs.nodeAt? (current ++ [name]) = none :=
        (nodeAt?_of_withoutPlainLinksIn hout).symm.trans hnode
      have hfirst := hlooks looks
      constructor
      · rw [hnone]
        exact .missing hfirst hnone
      · rcases h.spares _ hout with hsame | ⟨-, hdir⟩
        · rw [hsame, hnone]
          exact .missing (hlater hfirst) (hsame.trans hnone)
        · exact .enter (hlater hfirst) hdir (by simp) .here
  | unfollowed _ _ keep => cases keep
  | @follow _ current name rest target place looks hnode goesOn more ih =>
      obtain ⟨hfirst, hlast⟩ := ih hout
      obtain ⟨hbefore, hplain⟩ := hwf.nodeAt?_withoutPlainLinksIn hnode
      have hstays : fs'.nodeAt? (current ++ [name]) = some (.link target) := by
        by_cases hin : within (current ++ [name])
        · by_cases hrest : rest = []
          · subst hrest
            rw [List.append_nil] at hfirst
            exact absurd (hlinks _ _ _ _ _ _ hin hbefore hfirst) hout
          · obtain ⟨left, -, between, hbetween, -⟩ := hfirst.split hrest
            exact h.stays current name target hbefore ⟨_, between, hbetween⟩
              (hplain current name target rfl rfl hin)
        · exact h.nodeAt?_eq hin hbefore
      exact ⟨.follow (hlooks looks) hbefore goesOn hfirst,
        .follow (hlater (hlooks looks)) hstays goesOn hlast⟩
  | @enter _ current name rest found place looks hnode noLink more ih =>
      obtain ⟨hfirst, hlast⟩ := ih hout
      obtain ⟨hbefore, -⟩ := hwf.nodeAt?_withoutPlainLinksIn hnode
      refine ⟨.enter (hlooks looks) hbefore noLink hfirst, ?_⟩
      by_cases hrest : rest = []
      · subst hrest
        have hend : place.location = current ++ [name] := more.of_dots (by simp)
        rw [hend] at hout
        exact .enter (hlater (hlooks looks)) (h.nodeAt?_eq hout hbefore) noLink hlast
      · obtain ⟨first, later, rfl⟩ := List.exists_cons_of_ne_nil hrest
        have hdir := h.isDirAt _ (hdirs more.isDirAt_of_cons)
        exact .enter (hlater (hlooks looks)) (beq_iff_eq.mp hdir) (by simp) hlast

theorem KeepsWays.locate (h : KeepsWays within fs fs') (hwf : fs.WellFormed)
    (hlinks : fs.HoldsLinks within) {found : Option Node}
    (hlocate : (fs.withoutPlainLinksIn within).locate true p = .ok ⟨location, found⟩)
    (hout : ¬ within location) :
    fs.locate true p = .ok ⟨location, found⟩ ∧
      fs'.locate true p = .ok ⟨location, fs'.nodeAt? location⟩ := by
  have hfound : found = fs.nodeAt? location :=
    (node_eq_of_locate hlocate).trans (nodeAt?_of_withoutPlainLinksIn hout)
  obtain ⟨hp, hleads⟩ := locate_eq_ok_iff.mp hlocate
  obtain ⟨hfirst, hlast⟩ := h.leads hwf hlinks hleads hout
  rw [hfound]
  refine ⟨locate_eq_ok_iff.mpr ⟨hp, hfirst⟩, locate_eq_ok_iff.mpr ⟨hp, ?_⟩⟩
  rw [startOf, h.workingDir]
  exact hlast

theorem KeepsWays.refl (within : Location → Prop) (fs : FileSystem) : KeepsWays within fs fs :=
  ⟨fun _ hdir => hdir, fun _ _ => .inl rfl, fun _ _ _ hlink _ _ => hlink, rfl⟩

/-- Directories may come afterwards. -/
theorem KeepsWays.makesDirs {fs'' : FileSystem} (h : KeepsWays within fs fs')
    (hmakes : MakesDirs fs' fs'') : KeepsWays within fs fs'' where
  isDirAt location hdir := hmakes.grows.isDirAt (h.isDirAt location hdir)
  spares location hout := by
    rcases hmakes.spares [] location with hsame | ⟨hnone, hdir⟩
    · rw [List.nil_append] at hsame
      rw [hsame]
      exact h.spares location hout
    · rw [List.nil_append] at hnone hdir
      rcases h.spares location hout with hsame | ⟨-, hdir'⟩
      · exact .inr ⟨hsame.symm.trans hnone, hdir⟩
      · rw [hnone] at hdir'
        cases hdir'
  stays location name target hlink hpoints hplain :=
    hmakes.grows.nodeAt?_eq (h.stays location name target hlink hpoints hplain) (by simp)
  terms := hmakes.grows.terms.trans h.terms

/-- Normalization keeps the ways that lead out of where its walk can lead. -/
theorem keepsWays_normalizeCorpus (hwf : fs.WellFormed) (hclosed : fs.Closed)
    (hslash : '/' ∉ extension.toList) (hroot : fs.isDir root = true)
    (hwithin : Encloses fs root within) (host : Host) (checker : SyntaxChecker) :
    KeepsWays within fs (normalizeCorpus host checker fs root extension).1 := by
  have hrenamed := hwf.isRenamed_renameFiles hclosed hslash hroot
  have hrewrite : IsRewrite (renameFiles fs root extension).1
      (normalizeCorpus host checker fs root extension).1 := by
    rw [normalizeCorpus]
    exact isRewrite_normalizeEach host checker _ _
  refine ⟨fun location hdir => ?_, fun location hout => .inl ?_, ?_,
    hrewrite.terms.trans hrenamed.terms⟩
  · rw [hrewrite.isDirAt, hrenamed.isDirAt]
    exact hdir
  · exact normalizeCorpus_spares hwf hclosed hslash hroot hwithin host checker hout
  · intro location name target hlink hpoints hplain
    rcases hrenamed.stays location name target hlink with hstays | hgiven | hno
    · exact hrewrite.link_iff.mpr hstays
    · exact absurd hgiven hplain
    · exact absurd hpoints hno

end FileSystem

end RaceSkeletons
