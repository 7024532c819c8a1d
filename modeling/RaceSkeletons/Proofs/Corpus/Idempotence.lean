import RaceSkeletons.Proofs.Corpus.Contents
import RaceSkeletons.Proofs.Corpus.Rename
import RaceSkeletons.Proofs.FileSystem.Growth

/-!
# Normalizing twice

What normalization leaves is normal (`IsNormal`), if no write fails halfway: no
file below the root can get another name, and every fragment that is a text is
clean or cannot be opened for writing. A corpus that is normal is left alone
(`IsNormal.normalizeCorpus`). So the second normalization does nothing, whoever
checks the syntax and whatever the first could not do.
-/

namespace RaceSkeletons

open RaceSkeletons.Path (IsEntryName extensionOfName?)

namespace FileSystem

variable {fs fs' : FileSystem} {root p : Path} {top location : Location} {names : List String}
  {name extension : String} {files : List Path}

/-! ## Rewritten trees -/

theorem IsRewrite.entered_iff (h : IsRewrite fs fs') :
    Entered fs' root top names ↔ Entered fs root top names :=
  entered_congr h.terms fun _ => h.isDirAt

theorem IsRewrite.hasFile (h : IsRewrite fs fs') (hfile : HasFile fs' root top names name) :
    HasFile fs root top names name := by
  obtain ⟨hentered, hlisted, hname, hfits, hregular⟩ := hfile
  refine ⟨h.entered_iff.mp hentered, (isListed_congr h.terms).mp hlisted, hname, hfits, ?_⟩
  obtain ⟨node, hnode, hregular⟩ := hregular
  have hsame : (fs'.nodeAt? (top ++ names ++ [name])).map Node.isRegular =
      (fs.nodeAt? (top ++ names ++ [name])).map Node.isRegular := h.isRegular
  rw [hnode, Option.map_some, hregular] at hsame
  exact Option.map_eq_some_iff.mp hsame.symm

theorem IsRewrite.isSettled (h : IsRewrite fs fs')
    (hsettled : IsSettled extension fs root top names name) :
    IsSettled extension fs' root top names name :=
  hsettled.imp_right fun hnode hnone => hnode (h.nodeAt?_eq_none_iff.mp hnone)

theorem IsTree.of_rewrite (h : IsTree fs root top) (hwf : fs'.WellFormed)
    (hrewrite : IsRewrite fs fs') : IsTree fs' root top where
  wellFormed := hwf
  root := by
    refine target?_keep h.root hrewrite.workingDir (fun location hdir => ?_)
      fun _ _ _ hlink => .inl (hrewrite.link_iff.mpr hlink)
    rw [hrewrite.isDirAt]
    exact hdir
  noLink names target hlink := h.noLink names target (hrewrite.link_iff.mp hlink)

/-! ## Files that are left alone -/

theorem IsRewrite.grows (h : IsRewrite fs fs') : Grows fs fs' where
  keeps location node hnode := by
    rcases h.nodeAt? location with hsame | ⟨bytes, bytes', mode, hfirst, hlast⟩
    · exact ⟨node, hsame.trans hnode, .inl rfl⟩
    · rw [hfirst] at hnode
      obtain rfl := Option.some.inj hnode
      exact ⟨_, hlast, .inr ⟨bytes, bytes', mode, rfl, rfl⟩⟩
  terms := h.terms

/-- A fragment that is clean, no text, or cannot be written, is left alone. -/
theorem normalizeFragment_of_isLeftAlone (host : Host) (checker : SyntaxChecker)
    (h : ∀ location node, fs.target? p = .ok (location, node) → fs.IsLeftAlone location) :
    (normalizeFragment host checker fs p).1 = fs ∧
      (normalizeFragment host checker fs p).2.hasNewHeader = false := by
  obtain ⟨headed, hheader, hstrip⟩ := rewrites_normalizeFragment host checker fs p
  obtain ⟨rfl, hnone⟩ := hheader.eq_of_isLeftAlone
    (fun _ hclean => insertHeader_eq_iff.mpr hclean.header) h
  obtain ⟨hsame, -⟩ := hstrip.eq_of_isLeftAlone (fun _ hclean => hclean.stripped) h
  refine ⟨hsame, ?_⟩
  rw [FragmentReport.hasNewHeader]
  split
  · next changed hchanged =>
      rw [hchanged] at hnone
      exact Bool.eq_false_iff.mpr fun htrue => hnone (htrue ▸ rfl)
  · rfl

namespace IsLeftAlone

variable (h : fs.IsLeftAlone location) (host : Host) (checker : SyntaxChecker)
include h

theorem congr (hsame : fs'.nodeAt? location = fs.nodeAt? location) : fs'.IsLeftAlone location := by
  rw [IsLeftAlone, hsame]
  exact h

theorem nodeAt?_normalizeFragment (p : Path) :
    (normalizeFragment host checker fs p).1.nodeAt? location = fs.nodeAt? location := by
  rcases normalizeFragment_cases host checker fs p with
    hsame | ⟨other, bytes, content, mode, htarget, hwrite⟩
  · rw [hsame]
  · by_cases hother : location = other
    · subst hother
      rw [(normalizeFragment_of_isLeftAlone host checker fun found _ hfound => by
        obtain ⟨rfl, -⟩ := Prod.mk.inj (Except.ok.inj (htarget.symm.trans hfound))
        exact h).1]
    · exact hwrite.nodeAt?_of_ne hother

theorem nodeAt?_normalizeEach (files : List Path) :
    (normalizeEach host checker fs files).1.nodeAt? location = fs.nodeAt? location := by
  induction files generalizing fs with
  | nil => rfl
  | cons p rest ih =>
      have hfirst := h.nodeAt?_normalizeFragment host checker p
      exact (ih (h.congr hfirst)).trans hfirst

end IsLeftAlone

/-- Where no write fails halfway, normalizing a fragment leaves nothing to do. -/
theorem isLeftAlone_normalizeFragment (hfaults : fs.faults = []) (host : Host)
    (checker : SyntaxChecker) {node : Node} (h : fs.target? p = .ok (location, node)) :
    (normalizeFragment host checker fs p).1.IsLeftAlone location := by
  by_cases halone : fs.IsLeftAlone location
  · exact halone.congr (halone.nodeAt?_normalizeFragment host checker p)
  · obtain ⟨bytes, mode, text, hnode, hdecode, hopens⟩ : ∃ bytes mode text,
        fs.nodeAt? location = some (.file bytes mode) ∧ Utf8.decode? bytes = some text ∧
          mode.refusal? = none := by
      simp only [IsLeftAlone, not_forall, not_or, not_not] at halone
      obtain ⟨bytes, mode, text, hnode, hdecode, -, hopens⟩ := halone
      exact ⟨bytes, mode, text, hnode, hdecode, hopens⟩
    rw [nodeAt?_of_target? h] at hnode
    obtain rfl := Option.some.inj hnode
    have hread : fs.readText p = .ok text := readText_eq_ok_iff.mpr ⟨_, bytes, mode, h, hdecode⟩
    obtain ⟨_, -, hafter⟩ := readText_normalizeFragment
      (isRewritten_normalizeFragment host checker hread ⟨location, bytes, mode, h, hopens⟩ hfaults)
    obtain ⟨node, -, htarget⟩ :=
      (isRewrite_normalizeFragment host checker fs p).grows.target? h
    obtain ⟨_, bytes', mode', htarget', hdecode'⟩ := readText_eq_ok_iff.mp hafter
    obtain ⟨rfl, -⟩ := Prod.mk.inj (Except.ok.inj (htarget.symm.trans htarget'))
    intro bytes'' mode'' text'' hnode hdecode''
    rw [nodeAt?_of_target? htarget'] at hnode
    obtain ⟨rfl, rfl⟩ := Node.file.inj (Option.some.inj hnode)
    obtain rfl := Option.some.inj (hdecode'.symm.trans hdecode'')
    exact .inl (isClean_normalText _)

/-- Where no write fails halfway, normalizing fragments leaves nothing to do. -/
theorem isLeftAlone_normalizeEach (hfaults : fs.faults = []) (host : Host)
    (checker : SyntaxChecker) {node : Node} (h : fs.target? p = .ok (location, node))
    (hmem : p ∈ files) : (normalizeEach host checker fs files).1.IsLeftAlone location := by
  induction files generalizing fs node with
  | nil => exact absurd hmem List.not_mem_nil
  | cons first rest ih =>
      rw [normalizeEach]
      rcases List.mem_cons.mp hmem with rfl | hlater
      · have halone := isLeftAlone_normalizeFragment hfaults host checker h
        exact halone.congr (halone.nodeAt?_normalizeEach host checker rest)
      · obtain ⟨node', -, htarget⟩ :=
          (isRewrite_normalizeFragment host checker fs first).grows.target? h
        exact ih (List.suffix_nil.mp (hfaults ▸ faults_normalizeFragment host checker fs first))
          htarget hlater

theorem normalizeEach_of_isLeftAlone (host : Host) (checker : SyntaxChecker)
    (h : ∀ p ∈ files, ∀ location node, fs.target? p = .ok (location, node) →
      fs.IsLeftAlone location) :
    (normalizeEach host checker fs files).1 = fs ∧
      (normalizeEach host checker fs files).2.countP FragmentReport.hasNewHeader = 0 := by
  induction files with
  | nil => exact ⟨rfl, rfl⟩
  | cons p rest ih =>
      obtain ⟨hsame, hheader⟩ :=
        normalizeFragment_of_isLeftAlone host checker (h p List.mem_cons_self)
      obtain ⟨hrest, hcount⟩ := ih fun q hq => h q (List.mem_cons_of_mem p hq)
      simp only [normalizeEach, hsame, hrest, List.countP_cons, hcount, hheader]
      exact ⟨trivial, rfl⟩

/-! ## Normal corpora -/

theorem mem_fragmentsBelow : p ∈ fragmentsBelow fs root extension ↔
    .file p ∈ fs.walk byName root ∧ p.hasExtension extension = true := by
  rw [fragmentsBelow, List.mem_filter, mem_files_walk]

/-- A tree without links where normalization has nothing to do. -/
structure IsNormal (extension : String) (fs : FileSystem) (root : Path) (top : Location) :
    Prop where
  isTree : IsTree fs root top
  isSettled : ∀ names name, HasFile fs root top names name →
    IsSettled extension fs root top names name
  isLeftAlone : ∀ names name, HasFile fs root top names name →
    ((root.below names).join name).hasExtension extension = true →
      fs.IsLeftAlone (top ++ names ++ [name])

theorem IsTree.normalizeCorpus (h : IsTree fs root top) (hext : IsPlainExtension extension)
    (host : Host) (checker : SyntaxChecker) :
    IsTree (normalizeCorpus host checker fs root extension).1 root top := by
  obtain ⟨htree, -⟩ := h.of_renameFiles hext
  exact htree.of_rewrite (h.wellFormed.normalizeCorpus host checker root extension)
    (isRewrite_normalizeEach host checker _ _)

/-- Normalization makes a corpus normal, where no write fails halfway. -/
theorem IsTree.isNormal_normalizeCorpus (h : IsTree fs root top) (hfaults : fs.faults = [])
    (hext : IsPlainExtension extension) (host : Host) (checker : SyntaxChecker) :
    IsNormal extension (RaceSkeletons.normalizeCorpus host checker fs root extension).1 root
      top := by
  obtain ⟨htree, -⟩ := h.of_renameFiles hext
  have hrewrite := isRewrite_normalizeEach host checker (renameFiles fs root extension).1
    (fragmentsBelow (renameFiles fs root extension).1 root extension)
  refine ⟨h.normalizeCorpus hext host checker, fun names name hfile => ?_,
    fun names name hfile hhas => ?_⟩
  · exact hrewrite.isSettled (h.isSettled_renameFiles hext (hrewrite.hasFile hfile))
  · have hbefore := hrewrite.hasFile hfile
    obtain ⟨node, htarget⟩ := htree.target?_file hbefore
    refine isLeftAlone_normalizeEach ((faults_renameFiles fs root extension).trans hfaults) host
      checker htarget (mem_fragmentsBelow.mpr ⟨?_, hhas⟩)
    exact (htree.mem_walk_iff.mpr ⟨names, name, rfl, hbefore⟩).1

/-- In a normal corpus normalization does nothing. -/
theorem IsNormal.normalizeCorpus (h : IsNormal extension fs root top)
    (hext : IsPlainExtension extension) (host : Host) (checker : SyntaxChecker) :
    (normalizeCorpus host checker fs root extension).1 = fs ∧
      (normalizeCorpus host checker fs root extension).2.stats.filesRenamed = 0 ∧
        (normalizeCorpus host checker fs root extension).2.stats.packageUpdates = 0 := by
  obtain ⟨hsame, hrenamed⟩ := h.isTree.renameFiles_of_settled hext h.isSettled
  have halone : ∀ p ∈ fragmentsBelow fs root extension, ∀ location node,
      fs.target? p = .ok (location, node) → fs.IsLeftAlone location := by
    intro p hp location node htarget
    obtain ⟨hwalk, hhas⟩ := mem_fragmentsBelow.mp hp
    have hisFile := h.isTree.wellFormed.isFile_of_target? hwalk htarget
    obtain ⟨names, name, rfl, hfile⟩ := h.isTree.mem_walk_iff.mp ⟨hwalk, hisFile⟩
    obtain ⟨node', htarget'⟩ := h.isTree.target?_file hfile
    obtain ⟨rfl, -⟩ := Prod.mk.inj (Except.ok.inj (htarget.symm.trans htarget'))
    exact h.isLeftAlone names name hfile hhas
  obtain ⟨hrest, hheaders⟩ := normalizeEach_of_isLeftAlone host checker halone
  simp only [RaceSkeletons.normalizeCorpus, NormalizeReport.stats, hsame, hrest, hheaders]
  exact ⟨trivial, hrenamed, trivial⟩

end FileSystem

end RaceSkeletons
