import RaceSkeletons.Proofs.Corpus.Examine
import RaceSkeletons.Proofs.Corpus.Rename

/-!
# Fragments and the rename pass

Giving a file its normal name keeps its place among the entries of its directory
and its contents. If the file was a fragment with a name to keep, it stays one;
if it was none, it may become one, and the step says so
(`RenameStep.addsFragment`). So the fragments of a directory are the same after
the pass, but for those that its steps added
(`IsTree.keepsFragments_renameFiles`).
-/

namespace RaceSkeletons

open RaceSkeletons.Path (IsEntryName extensionOfName?)

/-! ## What a rename does to the fragments -/

/-- Whether a step makes a fragment of a file in the directory `dir`. -/
def RenameStep.addsFragment (extension : String) (dir : Path) : RenameStep → Bool
  | .renamed source target =>
    source.components.dropLast == dir.components && !source.hasExtension extension &&
      target.hasExtension extension
  | _ => false

theorem RenameStep.isRenamed_of_addsFragment {extension : String} {dir : Path} {step : RenameStep}
    (h : step.addsFragment extension dir = true) : step.isRenamed = true := by
  cases step with
  | renamed => rfl
  | _ => cases h

namespace FileSystem

variable {before fs fs' fs'' : FileSystem} {root dir p : Path} {top location : Location}
  {names : List String} {name entry extension : String} {node : Node} {files : List Path}
  {added added' : Nat}

/-- The fragments of a directory after some renames: they have names to keep,
and if none was added their nodes are the same as before. -/
structure KeepsFragments (extension : String) (dir : Path) (location : Location)
    (fs fs' : FileSystem) (added : Nat) : Prop where
  stems : ∀ child ∈ fragmentsAt extension fs' dir location, HasStem extension child.1
  length : (fragmentsAt extension fs' dir location).length =
    (fragmentsAt extension fs dir location).length + added
  nodes : added = 0 → (fragmentsAt extension fs' dir location).map (·.2) =
    (fragmentsAt extension fs dir location).map (·.2)

theorem KeepsFragments.of_children
    (hstems : ∀ child ∈ fragmentsAt extension fs dir location, HasStem extension child.1)
    (h : fs'.children location = fs.children location) :
    KeepsFragments extension dir location fs fs' 0 := by
  have hsame : fragmentsAt extension fs' dir location = fragmentsAt extension fs dir location := by
    rw [fragmentsAt, fragmentsAt, h]
  exact ⟨hsame ▸ hstems, by rw [hsame, Nat.add_zero], fun _ => by rw [hsame]⟩

theorem KeepsFragments.trans
    (h : KeepsFragments extension dir location fs fs' added)
    (h' : KeepsFragments extension dir location fs' fs'' added') :
    KeepsFragments extension dir location fs fs'' (added + added') where
  stems := h'.stems
  length := by rw [h'.length, h.length, Nat.add_assoc]
  nodes := by
    intro hnone
    obtain ⟨hfirst, hlast⟩ := Nat.add_eq_zero_iff.mp hnone
    rw [h'.nodes hlast, h.nodes hfirst]

theorem GetsName.children_of_ne (h : GetsName extension fs fs' location name node)
    {around : Location} (hne : around ≠ location) : fs'.children around = fs.children around := by
  rw [h.result, children_relocate]
  simp [hne]

/-- The entry keeps its place among the others. -/
theorem GetsName.children (h : GetsName extension fs fs' location name node)
    (hwf : fs.WellFormed) :
    ∃ front rest, fs.children location = front ++ (name, node) :: rest ∧
      fs'.children location = front ++ (normalName name extension, node) :: rest := by
  obtain ⟨front, rest, hchildren⟩ := List.append_of_mem (hwf.mem_children.mpr h.there)
  have hnodup := hwf.nodup_children location
  rw [hchildren, List.map_append, List.map_cons] at hnodup
  obtain ⟨-, hcons, hdisjoint⟩ := List.nodup_append.mp hnodup
  have hsame : ∀ part : List (String × Node), name ∉ part.map (·.1) →
      (part.map fun child => if location = location ∧ child.1 = name then
        (normalName name extension, child.2) else child) = part := by
    intro part hpart
    refine (List.map_congr_left fun child hchild => if_neg fun heq => hpart ?_).trans
      (List.map_id part)
    rw [← heq.2]
    exact List.mem_map_of_mem hchild
  refine ⟨front, rest, hchildren, ?_⟩
  rw [h.result, children_relocate, hchildren, List.map_append, List.map_cons, hsame front,
    hsame rest, if_pos ⟨rfl, rfl⟩]
  · exact (List.nodup_cons.mp hcons).1
  · exact fun hmem => hdisjoint name hmem name List.mem_cons_self rfl

/-- Where some entries are replaced, the others need no thought. -/
theorem KeepsFragments.of_parts {front rest old new : List (String × Node)}
    (hbefore : fs.children location = front ++ (old ++ rest))
    (hafter : fs'.children location = front ++ (new ++ rest))
    (hstems : ∀ child ∈ fragmentsAt extension fs dir location, HasStem extension child.1)
    (hnew : ∀ child ∈ new.filter (isFragmentOf extension dir), HasStem extension child.1)
    (hlength : (new.filter (isFragmentOf extension dir)).length =
      (old.filter (isFragmentOf extension dir)).length + added)
    (hnodes : added = 0 → (new.filter (isFragmentOf extension dir)).map (·.2) =
      (old.filter (isFragmentOf extension dir)).map (·.2)) :
    KeepsFragments extension dir location fs fs' added where
  stems := by
    simp only [fragmentsAt, hbefore, List.filter_append, List.mem_append] at hstems
    simp only [fragmentsAt, hafter, List.filter_append, List.mem_append]
    rintro child (hfront | hmem | hrest)
    · exact hstems child (.inl hfront)
    · exact hnew child hmem
    · exact hstems child (.inr (.inr hrest))
  length := by
    simp only [fragmentsAt, hbefore, hafter, List.filter_append, List.length_append, hlength]
    omega
  nodes := by
    intro hnone
    simp only [fragmentsAt, hbefore, hafter, List.filter_append, List.map_append, hnodes hnone]

/-- A file that gets its normal name stays a fragment, or becomes one. -/
theorem GetsName.keepsFragments (h : GetsName extension fs fs' location name node)
    (hwf : fs.WellFormed) (hext : IsPlainExtension extension) (hfits : Fits (dir.join name))
    (hfits' : Fits (dir.join (normalName name extension)))
    (hstems : ∀ child ∈ fragmentsAt extension fs dir location, HasStem extension child.1) :
    KeepsFragments extension dir location fs fs'
      (if extensionOfName? name.toList ≠ some extension.toList ∧
        extensionOfName? (normalName name extension).toList = some extension.toList
        then 1 else 0) := by
  obtain ⟨front, rest, hbefore, hafter⟩ := h.children hwf
  have hfragment : ∀ other, Fits (dir.join other) →
      (isFragmentOf extension dir (other, node) = true ↔
        extensionOfName? other.toList = some extension.toList) := by
    intro other hother
    simp only [isFragmentOf, h.isRegular, hother, decide_true, Bool.and_true, Bool.true_and,
      beq_iff_eq]
  have hold := hfragment name hfits
  have hnew := hfragment (normalName name extension) hfits'
  -- a fragment stays one, because it has a name to keep
  have hkeeps : extensionOfName? name.toList = some extension.toList →
      extensionOfName? (normalName name extension).toList = some extension.toList := by
    intro heq
    refine hext.extensionOfName?_normalName (hstems (name, node) ?_)
    rw [fragmentsAt, hbefore]
    exact List.mem_filter.mpr ⟨List.mem_append_right _ List.mem_cons_self, hold.mpr heq⟩
  have hparts : ∀ other : String, front ++ (other, node) :: rest =
      front ++ ([(other, node)] ++ rest) := fun _ => rfl
  refine .of_parts (hbefore.trans (hparts _)) (hafter.trans (hparts _)) hstems ?_ ?_ ?_
  · intro child hchild
    obtain ⟨hmem, htrue⟩ := List.mem_filter.mp hchild
    obtain rfl := List.mem_singleton.mp hmem
    exact hext.hasStem_normalName (hnew.mp htrue)
  · simp only [List.filter_singleton, Bool.cond_eq_ite, hold, hnew]
    by_cases holdExtension : extensionOfName? name.toList = some extension.toList
    · simp [holdExtension, hkeeps holdExtension]
    · simp only [holdExtension]
      split <;> simp_all
  · intro hnone
    simp only [List.filter_singleton, Bool.cond_eq_ite, hold, hnew]
    by_cases holdExtension : extensionOfName? name.toList = some extension.toList
    · rw [if_pos holdExtension, if_pos (hkeeps holdExtension)]
      rfl
    · rw [if_neg holdExtension, if_neg]
      intro hnewExtension
      rw [if_pos ⟨holdExtension, hnewExtension⟩] at hnone
      cases hnone

/-! ## The pass and one directory -/

/-- The fragments that the steps of a pass add to a directory. -/
def addedFragments (extension : String) (dir : Path) (steps : List RenameStep) : Nat :=
  steps.countP (RenameStep.addsFragment extension dir)

/-- Only renames add fragments, so the files in reach tell how many there are. -/
theorem WellFormed.addedFragments_renameFiles (hwf : fs.WellFormed) (root : Path)
    (extension : String) (dir : Path) :
    addedFragments extension dir (RaceSkeletons.renameFiles fs root extension).2.steps =
      addedFragments extension dir
        (RaceSkeletons.renameEach extension fs (fs.filesInReach root)).2 := by
  have hrenamed : ∀ steps : List RenameStep, addedFragments extension dir steps =
      addedFragments extension dir (steps.filter RenameStep.isRenamed) := fun steps => by
    rw [addedFragments, addedFragments, List.countP_filter]
    refine List.countP_congr fun step _ => ?_
    rw [Bool.and_eq_true]
    exact ⟨fun hadds => ⟨hadds, RenameStep.isRenamed_of_addsFragment hadds⟩, (·.1)⟩
  rw [hrenamed, (hwf.renameFiles_eq root extension).2, ← hrenamed]

theorem IsTree.addsFragment_renamed (h : IsTree fs root top)
    (hentry : Entered fs root top [entry]) (hnames : Entered fs root top names)
    (hname : IsEntryName name) (hother : IsEntryName (normalName name extension)) :
    (RenameStep.renamed ((root.below names).join name)
        (normalPath extension ((root.below names).join name))).addsFragment extension
          (root.join entry) = true ↔
      names = [entry] ∧ extensionOfName? name.toList ≠ some extension.toList ∧
        extensionOfName? (normalName name extension).toList = some extension.toList := by
  obtain ⟨around, -, hnormal⟩ := h.normalPath_join hnames hname extension
  have hdir : (root.join entry).components = root.components ++ [entry].map .normal :=
    hentry.components_below
  have hcomponents : ((root.below names).join name).components.dropLast =
      (root.join entry).components ↔ names = [entry] := by
    rw [Path.components_join _ hname, List.dropLast_concat, hnames.components_below, hdir,
      List.append_right_inj]
    exact (List.map_injective_iff.mpr fun _ _ heq => Path.Component.normal.inj heq).eq_iff
  simp only [RenameStep.addsFragment, Bool.and_eq_true, beq_iff_eq, Bool.not_eq_true',
    hcomponents, hnormal, Path.hasExtension_join _ hname, Path.hasExtension_join _ hother,
    beq_eq_false_iff_ne, and_assoc]

/-- In a directory that is an entry itself the normal path is the directory's
with the normal name. -/
theorem normalPath_join_join (p : Path) (hentry : IsEntryName entry) (hname : IsEntryName name)
    (extension : String) :
    normalPath extension ((p.join entry).join name) =
      (p.join entry).join (normalName name extension) := by
  rw [normalPath, Path.fileName_join _ hname, Path.withFileName_join_join p hentry hname]

theorem IsTree.keepsFragments_renameFile (h : IsTree fs root top)
    (hext : IsPlainExtension extension) (htidied : IsTidied extension before fs)
    (hfile : HasFile before root top names name) (hentry : Entered before root top [entry])
    (hstems : ∀ child ∈ fragmentsAt extension fs (root.join entry) (top ++ [entry]),
      HasStem extension child.1) :
    KeepsFragments extension (root.join entry) (top ++ [entry]) fs
      (renameFile extension fs ((root.below names).join name)).1
      (addedFragments extension (root.join entry)
        [(renameFile extension fs ((root.below names).join name)).2]) := by
  rcases h.renameFile_cases hext htidied hfile with
    ⟨hsame, hstep, -⟩ | ⟨fs', node, hrenamed, hgets, hfits⟩
  · have hnone : addedFragments extension (root.join entry)
        [(renameFile extension fs ((root.below names).join name)).2] = 0 := by
      refine List.countP_eq_zero.mpr fun step hmem hadds => ?_
      obtain rfl := List.mem_singleton.mp hmem
      rw [RenameStep.isRenamed_of_addsFragment hadds] at hstep
      cases hstep
    rw [hnone, hsame]
    exact .of_children hstems rfl
  · have hadds := h.addsFragment_renamed (htidied.entered hentry)
      (htidied.entered hfile.entered) hfile.isName
      (hext.isEntryName_normalName hfile.isName.noSlash)
    rw [hrenamed, addedFragments, List.countP_singleton]
    by_cases hnames : names = [entry]
    · subst hnames
      have hnormal := normalPath_join_join root (entered_singleton_iff.mp hentry).2.1 hfile.isName
        extension
      have hkeeps := hgets.keepsFragments h.wellFormed hext hfile.fits (hnormal ▸ hfits) hstems
      simp only [hadds, true_and]
      exact hkeeps
    · rw [if_neg fun htrue => hnames (hadds.mp htrue).1]
      refine .of_children hstems (hgets.children_of_ne fun heq => hnames ?_)
      exact (List.append_cancel_left heq).symm

theorem IsTree.keepsFragments_renameEach (h : IsTree fs root top)
    (hext : IsPlainExtension extension) (htidied : IsTidied extension before fs)
    (hfiles : ArePathsOf before root top files) (hentry : Entered before root top [entry])
    (hstems : ∀ child ∈ fragmentsAt extension fs (root.join entry) (top ++ [entry]),
      HasStem extension child.1) :
    KeepsFragments extension (root.join entry) (top ++ [entry]) fs
      (renameEach extension fs files).1
      (addedFragments extension (root.join entry) (renameEach extension fs files).2) := by
  induction files generalizing fs with
  | nil => exact .of_children hstems rfl
  | cons p rest ih =>
      obtain ⟨names, name, rfl, hfile⟩ := hfiles p List.mem_cons_self
      obtain ⟨htree, hstep, -⟩ := h.of_renameFile hext htidied hfile
      have hfirst := h.keepsFragments_renameFile hext htidied hfile hentry hstems
      have hrest := ih htree (htidied.trans hstep)
        (fun q hq => hfiles q (List.mem_cons_of_mem _ hq)) hfirst.stems
      have hadded : ∀ (step : RenameStep) (steps : List RenameStep),
          addedFragments extension (root.join entry) [step] +
            addedFragments extension (root.join entry) steps =
          addedFragments extension (root.join entry) (step :: steps) := by
        intro step steps
        rw [addedFragments, addedFragments, ← List.countP_append]
        rfl
      rw [renameEach, ← hadded]
      exact hfirst.trans hrest

/-- The fragments of a directory after the pass. -/
theorem IsTree.keepsFragments_renameFiles (h : IsTree fs root top)
    (hext : IsPlainExtension extension) (hentry : Entered fs root top [entry])
    (hstems : ∀ child ∈ fragmentsAt extension fs (root.join entry) (top ++ [entry]),
      HasStem extension child.1) :
    KeepsFragments extension (root.join entry) (top ++ [entry]) fs
      (renameFiles fs root extension).1
      (addedFragments extension (root.join entry) (renameFiles fs root extension).2.steps) := by
  rw [(h.wellFormed.renameFiles_eq root extension).1, h.wellFormed.addedFragments_renameFiles]
  exact h.keepsFragments_renameEach hext (.refl extension fs) h.arePathsOf_filesInReach hentry
    hstems

/-- A directory whose files are fragments is given none. -/
theorem IsTree.addedFragments_eq_zero (h : IsTree fs root top) (hext : IsPlainExtension extension)
    (htidied : IsTidied extension before fs) (hfiles : ArePathsOf before root top files)
    (hentry : Entered before root top [entry])
    (hall : ∀ name, HasFile before root top [entry] name →
      extensionOfName? name.toList = some extension.toList) :
    addedFragments extension (root.join entry) (renameEach extension fs files).2 = 0 := by
  induction files generalizing fs with
  | nil => rfl
  | cons p rest ih =>
      obtain ⟨names, name, rfl, hfile⟩ := hfiles p List.mem_cons_self
      obtain ⟨htree, hstep, -⟩ := h.of_renameFile hext htidied hfile
      have hrest := ih htree (htidied.trans hstep) fun q hq => hfiles q (List.mem_cons_of_mem _ hq)
      rw [renameEach, addedFragments, List.countP_cons_of_neg]
      · exact hrest
      · intro hadds
        rcases h.renameFile_cases hext htidied hfile with
          ⟨-, hnot, -⟩ | ⟨fs', node, hrenamed, -, -⟩
        · rw [RenameStep.isRenamed_of_addsFragment hadds] at hnot
          cases hnot
        · rw [hrenamed, h.addsFragment_renamed (htidied.entered hentry)
            (htidied.entered hfile.entered) hfile.isName
            (hext.isEntryName_normalName hfile.isName.noSlash)] at hadds
          obtain ⟨rfl, hname, -⟩ := hadds
          exact hname (hall name hfile)

end FileSystem

end RaceSkeletons
