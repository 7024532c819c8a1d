import RaceSkeletons.Corpus.Rename
import RaceSkeletons.Proofs.Corpus.FileName
import RaceSkeletons.Proofs.Corpus.InReach
import RaceSkeletons.Proofs.Corpus.Normalize
import RaceSkeletons.Proofs.FileSystem.Tree

/-!
# The rename pass in a tree without links

In a tree without links a file stays where it is when its normal path is too
long for the system, or something stands there (`FileSystem.IsSettled`);
otherwise its entry gets the normal name (`FileSystem.GetsName`). Either way
entries with other names than normal ones only go, and those with normal names
only come (`FileSystem.IsTidied`). So what is settled once stays settled, and
after the pass all files are (`IsTree.isSettled_renameFiles`).
-/

namespace RaceSkeletons

open RaceSkeletons.Path (IsEntryName)

namespace FileSystem

variable {before fs fs' fs'' : FileSystem} {root p : Path} {top location : Location}
  {names : List String} {name extension : String} {node : Node}

/-! ## One file -/

/-- Nothing comes of giving the entry its normal name: the path is too long, or
something is there. -/
def IsSettled (extension : String) (fs : FileSystem) (root : Path) (top : Location)
    (names : List String) (name : String) : Prop :=
  ¬ Fits (normalPath extension ((root.below names).join name)) ∨
    fs.nodeAt? (top ++ names ++ [normalName name extension]) ≠ none

/-- `fs'` is `fs` with a regular file of the directory at `location` under its
normal name, which was free. -/
structure GetsName (extension : String) (fs fs' : FileSystem) (location : Location)
    (name : String) (node : Node) : Prop where
  there : fs.nodeAt? (location ++ [name]) = some node
  isRegular : node.isRegular = true
  free : fs.nodeAt? (location ++ [normalName name extension]) = none
  result : fs' = fs.relocate (location ++ [name]) (location ++ [normalName name extension])

namespace GetsName

variable (h : GetsName extension fs fs' location name node)

include h

theorem isMove :
    IsMove fs fs' (location ++ [name]) (location ++ [normalName name extension]) node := by
  have hnode : node ≠ .dir := by
    rintro rfl
    exact absurd h.isRegular (by decide)
  rw [h.result]
  exact isMove_relocate h.there hnode h.free

/-- The name is another one, because it is in use. -/
theorem isNew : normalName name extension ≠ name := by
  intro heq
  have hfree := h.free
  rw [heq, h.there] at hfree
  cases hfree

theorem gone : fs'.nodeAt? (location ++ [name]) = none := by
  rw [h.isMove.nodeAt?, if_neg, if_pos rfl]
  intro heq
  exact h.isNew (List.singleton_inj.mp (List.append_cancel_left heq)).symm

end GetsName

namespace IsTree

variable (h : IsTree fs root top)

include h

theorem nonempty (hnames : Entered fs root top names) : (root.below names).text ≠ "" :=
  (target?_eq_ok_iff.mp (h.target?_entered hnames)).1.2.1

/-- The normal path of an entry leads into the same directory. -/
theorem normalPath_join (hnames : Entered fs root top names) (hname : IsEntryName name)
    (extension : String) :
    ∃ around, fs.Opens around (top ++ names) ∧
      normalPath extension ((root.below names).join name) =
        around.join (normalName name extension) := by
  obtain ⟨around, haround, hother⟩ := Path.withFileName_join (h.nonempty hnames) hname
  refine ⟨around, (h.opens hnames).of_isAround haround, ?_⟩
  rw [normalPath, Path.fileName_join _ hname, hother]

theorem renameFile_of_settled (hext : IsPlainExtension extension)
    (hnames : Entered fs root top names) (hname : IsEntryName name)
    (hsettled : IsSettled extension fs root top names name) :
    (renameFile extension fs ((root.below names).join name)).1 = fs ∧
      (renameFile extension fs ((root.below names).join name)).2.isRenamed = false := by
  obtain ⟨around, haround, hnormal⟩ := h.normalPath_join hnames hname extension
  have hother := hext.isEntryName_normalName hname.noSlash
  simp only [renameFile, hnormal]
  split
  · exact ⟨rfl, rfl⟩
  by_cases hfits : Fits (around.join (normalName name extension))
  · have htaken : fs.pathExists (around.join (normalName name extension)) = true := by
      rw [pathExists, haround.target?_join hother hfits (h.noLink_child names _)]
      rcases hsettled with hlong | hnode
      · rw [hnormal] at hlong
        exact absurd hfits hlong
      · obtain ⟨found, hfound⟩ := Option.ne_none_iff_exists'.mp hnode
        rw [hfound]
    rw [if_pos htaken]
    exact ⟨rfl, rfl⟩
  · obtain ⟨e, htarget⟩ := IsOverlong.target? ⟨_, _, rfl, hother, hfits⟩ fs
    have hfree : ¬ fs.pathExists (around.join (normalName name extension)) = true := by
      rw [pathExists, htarget]
      exact Bool.false_ne_true
    rw [if_neg hfree]
    split
    · next renamed hrename =>
        obtain ⟨-, -, target, found, -, hlocate, -⟩ := isMove_of_rename hrename
        obtain ⟨e, herror⟩ := locate_join_of_not_fits fs false hother hfits
        rw [herror] at hlocate
        cases hlocate
    · exact ⟨rfl, rfl⟩

theorem renameFile_of_missing (extension : String) (hnames : Entered fs root top names)
    (hname : IsEntryName name) (hfits : Fits ((root.below names).join name))
    (hnode : fs.nodeAt? (top ++ names ++ [name]) = none) :
    (renameFile extension fs ((root.below names).join name)).1 = fs ∧
      (renameFile extension fs ((root.below names).join name)).2.isRenamed = false := by
  have hlocate : fs.locate false ((root.below names).join name) = .ok ⟨_, _⟩ :=
    (h.opens hnames).locate_join hname hfits (h.noLink_child names name)
  rw [hnode] at hlocate
  simp only [renameFile, rename, hlocate]
  split
  · exact ⟨rfl, rfl⟩
  · split <;> exact ⟨rfl, rfl⟩

theorem renameFile_of_free (hext : IsPlainExtension extension)
    (hnames : Entered fs root top names) (hname : IsEntryName name)
    (hfits : Fits ((root.below names).join name))
    (hnode : fs.nodeAt? (top ++ names ++ [name]) = some node) (hregular : node.isRegular = true)
    (hsettled : ¬ IsSettled extension fs root top names name) :
    ∃ fs', renameFile extension fs ((root.below names).join name) =
        (fs', .renamed ((root.below names).join name)
          (normalPath extension ((root.below names).join name))) ∧
      GetsName extension fs fs' (top ++ names) name node ∧
        Fits (normalPath extension ((root.below names).join name)) := by
  obtain ⟨hlong, hfree⟩ := not_or.mp hsettled
  have htargetFits := not_not.mp hlong
  have htargetNode := not_not.mp hfree
  have hgets : GetsName extension fs _ (top ++ names) name node :=
    ⟨hnode, hregular, htargetNode, rfl⟩
  refine ⟨_, ?_, hgets, htargetFits⟩
  obtain ⟨around, haround, hnormal⟩ := h.normalPath_join hnames hname extension
  rw [hnormal] at htargetFits ⊢
  have hother := hext.isEntryName_normalName hname.noSlash
  have hmissing : ¬ fs.pathExists (around.join (normalName name extension)) = true := by
    rw [pathExists, haround.target?_join hother htargetFits (h.noLink_child names _), htargetNode]
    exact Bool.false_ne_true
  have hsource : fs.locate false ((root.below names).join name) = .ok ⟨_, _⟩ :=
    (h.opens hnames).locate_join hname hfits (h.noLink_child names name)
  have htarget : fs.locate false (around.join (normalName name extension)) = .ok ⟨_, _⟩ :=
    haround.locate_join hother htargetFits (h.noLink_child names _)
  rw [hnode] at hsource
  rw [htargetNode] at htarget
  have hdiffers : ¬ normalName ((root.below names).join name).fileName extension =
      ((root.below names).join name).fileName := by
    rw [Path.fileName_join _ hname]
    exact hgets.isNew
  simp only [renameFile, if_neg hdiffers, hnormal, if_neg hmissing, rename, hsource, htarget]

/-- An entry that gets another name leaves the tree a tree without links. -/
theorem of_getsName (hwf : fs'.WellFormed)
    (hgets : GetsName extension fs fs' (top ++ names) name node) : IsTree fs' root top where
  wellFormed := hwf
  root := by
    have hmove := hgets.isMove
    refine target?_keep h.root hmove.workingDir (fun location hdir => ?_)
      fun current other target hlink => .inl ?_
    · rw [hmove.isDirAt]
      exact hdir
    · rw [hmove.nodeAt?_of_ne, hlink]
      · intro heq
        rw [heq, hgets.free] at hlink
        cases hlink
      · intro heq
        rw [heq] at hlink
        exact h.noLink_child names name target hlink
  noLink := by
    intro below target hlink
    rw [hgets.isMove.nodeAt?] at hlink
    split at hlink
    · rw [Option.some.inj hlink] at hgets
      exact absurd hgets.isRegular Bool.false_ne_true
    · split at hlink
      · cases hlink
      · exact h.noLink below target hlink

end IsTree

/-! ## What the pass keeps -/

/-- What the rename pass may do to a file system: directories stay, what has
another name than its normal one was there before, and what has its normal name
is not taken away. -/
structure IsTidied (extension : String) (before fs : FileSystem) : Prop where
  terms : fs.toTerms = before.toTerms
  isDirAt : ∀ location, fs.isDirAt location = before.isDirAt location
  comes : ∀ location name node, normalName name extension ≠ name →
    fs.nodeAt? (location ++ [name]) = some node → before.nodeAt? (location ++ [name]) = some node
  stays : ∀ location name, normalName name extension = name →
    before.nodeAt? (location ++ [name]) ≠ none → fs.nodeAt? (location ++ [name]) ≠ none

namespace IsTidied

theorem refl (extension : String) (fs : FileSystem) : IsTidied extension fs fs :=
  ⟨rfl, fun _ => rfl, fun _ _ _ _ hnode => hnode, fun _ _ _ hnode => hnode⟩

theorem trans (h : IsTidied extension before fs) (h' : IsTidied extension fs fs') :
    IsTidied extension before fs' where
  terms := h'.terms.trans h.terms
  isDirAt location := (h'.isDirAt location).trans (h.isDirAt location)
  comes location name node hname hnode :=
    h.comes location name node hname (h'.comes location name node hname hnode)
  stays location name hname hnode :=
    h'.stays location name hname (h.stays location name hname hnode)

theorem of_getsName (hext : IsPlainExtension extension)
    (hgets : GetsName extension fs fs' location name node) : IsTidied extension fs fs' where
  terms := hgets.isMove.terms
  isDirAt _ := hgets.isMove.isDirAt
  comes := by
    intro around other found hother hfound
    rw [hgets.isMove.nodeAt?] at hfound
    split at hfound
    · next heq =>
        obtain ⟨-, hlast⟩ := List.append_inj' heq rfl
        rw [List.singleton_inj.mp hlast, hext.normalName_normalName] at hother
        exact absurd rfl hother
    · split at hfound
      · cases hfound
      · exact hfound
  stays := by
    intro around other hother hnode
    rw [hgets.isMove.nodeAt?]
    split
    · exact nofun
    · split
      · next heq =>
          obtain ⟨-, hlast⟩ := List.append_inj' heq rfl
          rw [List.singleton_inj.mp hlast] at hother
          exact absurd hother hgets.isNew
      · exact hnode

theorem missing (h : IsTidied extension fs fs') (hname : normalName name extension ≠ name)
    (hnode : fs.nodeAt? (location ++ [name]) = none) :
    fs'.nodeAt? (location ++ [name]) = none := by
  cases hlater : fs'.nodeAt? (location ++ [name]) with
  | none => rfl
  | some node =>
      rw [h.comes location name node hname hlater] at hnode
      cases hnode

theorem isSettled (h : IsTidied extension fs fs') (hext : IsPlainExtension extension)
    (hsettled : IsSettled extension fs root top names name) :
    IsSettled extension fs' root top names name :=
  hsettled.imp_right fun hnode => h.stays _ _ (hext.normalName_normalName name) hnode

theorem entered_iff (h : IsTidied extension before fs) :
    Entered fs root top names ↔ Entered before root top names :=
  entered_congr h.terms h.isDirAt

theorem entered (h : IsTidied extension before fs) (hnames : Entered before root top names) :
    Entered fs root top names :=
  h.entered_iff.mpr hnames

/-- A file with another name than its normal one was there before the pass. -/
theorem hasFile (h : IsTidied extension before fs) (hname : normalName name extension ≠ name)
    (hfile : HasFile fs root top names name) : HasFile before root top names name := by
  obtain ⟨hentered, hlisted, hentry, hfits, node, hnode, hregular⟩ := hfile
  exact ⟨h.entered_iff.mp hentered, (isListed_congr h.terms).mp hlisted, hentry, hfits, node,
    h.comes _ _ _ hname hnode, hregular⟩

end IsTidied

/-! ## The pass over all files -/

/-- What one step of the pass can do, when the file was there before. -/
theorem IsTree.renameFile_cases (h : IsTree fs root top) (hext : IsPlainExtension extension)
    (htidied : IsTidied extension before fs) (hfile : HasFile before root top names name) :
    ((renameFile extension fs ((root.below names).join name)).1 = fs ∧
        (renameFile extension fs ((root.below names).join name)).2.isRenamed = false ∧
        (IsSettled extension fs root top names name ∨
          normalName name extension ≠ name ∧ fs.nodeAt? (top ++ names ++ [name]) = none)) ∨
      ∃ fs' node, renameFile extension fs ((root.below names).join name) =
          (fs', .renamed ((root.below names).join name)
            (normalPath extension ((root.below names).join name))) ∧
        GetsName extension fs fs' (top ++ names) name node ∧
          Fits (normalPath extension ((root.below names).join name)) := by
  have hnames := htidied.entered hfile.entered
  by_cases hsettled : IsSettled extension fs root top names name
  · obtain ⟨hsame, hstep⟩ := h.renameFile_of_settled hext hnames hfile.isName hsettled
    exact .inl ⟨hsame, hstep, .inl hsettled⟩
  · obtain ⟨found, hfound, hregular⟩ := hfile.isRegular
    -- a file with a normal name is settled by itself
    have hname : normalName name extension ≠ name := by
      intro heq
      refine hsettled (.inr ?_)
      rw [heq]
      refine htidied.stays _ _ heq ?_
      rw [hfound]
      exact nofun
    cases hnode : fs.nodeAt? (top ++ names ++ [name]) with
    | none =>
        obtain ⟨hsame, hstep⟩ :=
          h.renameFile_of_missing extension hnames hfile.isName hfile.fits hnode
        exact .inl ⟨hsame, hstep, .inr ⟨hname, rfl⟩⟩
    | some node =>
        have hbefore := htidied.comes _ _ _ hname hnode
        rw [hfound] at hbefore
        rw [Option.some.inj hbefore] at hregular
        obtain ⟨fs', hrenamed, hgets, hfits⟩ :=
          h.renameFile_of_free hext hnames hfile.isName hfile.fits hnode hregular hsettled
        exact .inr ⟨fs', node, hrenamed, hgets, hfits⟩

/-- Paths of files that the tree had before the pass. -/
def ArePathsOf (before : FileSystem) (root : Path) (top : Location) (files : List Path) : Prop :=
  ∀ p ∈ files, ∃ names name, p = (root.below names).join name ∧ HasFile before root top names name

theorem IsTree.of_renameFile (h : IsTree fs root top) (hext : IsPlainExtension extension)
    (htidied : IsTidied extension before fs) (hfile : HasFile before root top names name) :
    IsTree (renameFile extension fs ((root.below names).join name)).1 root top ∧
      IsTidied extension fs (renameFile extension fs ((root.below names).join name)).1 ∧
        (IsSettled extension (renameFile extension fs ((root.below names).join name)).1 root top
            names name ∨
          normalName name extension ≠ name ∧
            (renameFile extension fs ((root.below names).join name)).1.nodeAt?
              (top ++ names ++ [name]) = none) := by
  rcases h.renameFile_cases hext htidied hfile with
    ⟨hsame, -, hdone⟩ | ⟨fs', node, hrenamed, hgets, -⟩
  · rw [hsame]
    exact ⟨h, .refl extension fs, hdone⟩
  · have hwf := h.wellFormed.renameFile extension ((root.below names).join name)
    rw [hrenamed] at hwf ⊢
    exact ⟨h.of_getsName hwf hgets, .of_getsName hext hgets, .inr ⟨hgets.isNew, hgets.gone⟩⟩

theorem IsTree.of_renameEach (h : IsTree fs root top) (hext : IsPlainExtension extension)
    (htidied : IsTidied extension before fs) {files : List Path}
    (hfiles : ArePathsOf before root top files) :
    IsTree (renameEach extension fs files).1 root top ∧
      IsTidied extension fs (renameEach extension fs files).1 := by
  induction files generalizing fs with
  | nil => exact ⟨h, .refl extension fs⟩
  | cons p rest ih =>
      obtain ⟨names, name, rfl, hfile⟩ := hfiles p List.mem_cons_self
      obtain ⟨htree, hstep, -⟩ := h.of_renameFile hext htidied hfile
      obtain ⟨htree', hrest⟩ :=
        ih htree (htidied.trans hstep) fun q hq => hfiles q (List.mem_cons_of_mem _ hq)
      rw [renameEach]
      exact ⟨htree', hstep.trans hrest⟩

/-- A file that the pass went over is gone from its name, or settled. -/
theorem IsTree.settled_renameEach (h : IsTree fs root top) (hext : IsPlainExtension extension)
    (htidied : IsTidied extension before fs) {files : List Path}
    (hfiles : ArePathsOf before root top files) (hfile : HasFile before root top names name)
    (hmem : (root.below names).join name ∈ files) :
    IsSettled extension (renameEach extension fs files).1 root top names name ∨
      normalName name extension ≠ name ∧
        (renameEach extension fs files).1.nodeAt? (top ++ names ++ [name]) = none := by
  induction files generalizing fs with
  | nil => exact absurd hmem List.not_mem_nil
  | cons p rest ih =>
      have hrestFiles : ArePathsOf before root top rest :=
        fun q hq => hfiles q (List.mem_cons_of_mem p hq)
      obtain ⟨names', name', rfl, hfile'⟩ := hfiles p List.mem_cons_self
      obtain ⟨htree, hstep, -⟩ := h.of_renameFile hext htidied hfile'
      rw [renameEach]
      rcases List.mem_cons.mp hmem with heq | hlater
      · obtain ⟨-, -, hdone⟩ := h.of_renameFile hext htidied hfile
        obtain ⟨-, hrest⟩ := htree.of_renameEach hext (htidied.trans hstep) hrestFiles
        rw [heq] at hdone
        exact hdone.imp (hrest.isSettled hext) fun hgone =>
          ⟨hgone.1, hrest.missing hgone.1 hgone.2⟩
      · exact ih htree (htidied.trans hstep) hrestFiles hlater

theorem IsTree.renameEach_of_settled (h : IsTree fs root top) (hext : IsPlainExtension extension)
    {files : List Path} (hfiles : ∀ p ∈ files, ∃ names name, p = (root.below names).join name ∧
      HasFile fs root top names name ∧ IsSettled extension fs root top names name) :
    (renameEach extension fs files).1 = fs ∧
      (renameEach extension fs files).2.countP RenameStep.isRenamed = 0 := by
  induction files with
  | nil => exact ⟨rfl, rfl⟩
  | cons p rest ih =>
      obtain ⟨names, name, rfl, hfile, hsettled⟩ := hfiles p List.mem_cons_self
      obtain ⟨hsame, hstep⟩ :=
        h.renameFile_of_settled hext hfile.entered hfile.isName hsettled
      obtain ⟨hrest, hcount⟩ := ih fun q hq => hfiles q (List.mem_cons_of_mem _ hq)
      simp only [renameEach, hsame, hrest, List.countP_cons, hcount, hstep]
      exact ⟨trivial, rfl⟩

/-! ## The pass below a root -/

theorem IsTree.arePathsOf_filesInReach (h : IsTree fs root top) :
    ArePathsOf fs root top (fs.filesInReach root) :=
  fun _ hp => h.mem_walk_iff.mp (mem_filesInReach.mp hp)

theorem IsTree.of_renameFiles (h : IsTree fs root top) (hext : IsPlainExtension extension) :
    IsTree (renameFiles fs root extension).1 root top ∧
      IsTidied extension fs (renameFiles fs root extension).1 := by
  rw [(h.wellFormed.renameFiles_eq root extension).1]
  exact h.of_renameEach hext (.refl extension fs) h.arePathsOf_filesInReach

/-- After the pass all files are settled. -/
theorem IsTree.isSettled_renameFiles (h : IsTree fs root top) (hext : IsPlainExtension extension)
    (hfile : HasFile (renameFiles fs root extension).1 root top names name) :
    IsSettled extension (renameFiles fs root extension).1 root top names name := by
  obtain ⟨node, hnode, -⟩ := hfile.isRegular
  by_cases hname : normalName name extension = name
  · right
    rw [hname, hnode]
    exact nofun
  · have hbefore := (h.of_renameFiles hext).2.hasFile hname hfile
    have hwalk : (root.below names).join name ∈ fs.filesInReach root :=
      mem_filesInReach.mpr (h.mem_walk_iff.mpr ⟨names, name, rfl, hbefore⟩)
    rw [(h.wellFormed.renameFiles_eq root extension).1] at hnode ⊢
    rcases h.settled_renameEach hext (.refl extension fs) h.arePathsOf_filesInReach hbefore hwalk
      with hsettled | ⟨-, hgone⟩
    · exact hsettled
    · rw [hgone] at hnode
      cases hnode

/-- Where all files are settled the pass does nothing. -/
theorem IsTree.renameFiles_of_settled (h : IsTree fs root top) (hext : IsPlainExtension extension)
    (hsettled : ∀ names name, HasFile fs root top names name →
      IsSettled extension fs root top names name) :
    (renameFiles fs root extension).1 = fs ∧
      (renameFiles fs root extension).2.count = 0 := by
  rw [(h.wellFormed.renameFiles_eq root extension).1, h.wellFormed.count_renameFiles]
  refine h.renameEach_of_settled hext fun p hp => ?_
  obtain ⟨names, name, rfl, hfile⟩ := h.arePathsOf_filesInReach p hp
  exact ⟨names, name, rfl, hfile, hsettled names name hfile⟩

end FileSystem

end RaceSkeletons
