import RaceSkeletons.Proofs.Corpus.Combine
import RaceSkeletons.Proofs.Corpus.Idempotence
import RaceSkeletons.Proofs.Corpus.Survey

/-!
# A corpus beside which files are written

When files are written outside of a tree without links, directories may come to
it, because a path that ends outside can go through it; its files stay
(`GrowsOutside.keepsFiles`). So a normal corpus stays normal
(`IsNormal.of_growsOutside`), and whether there is anything to combine does not
change (`IsTree.combinedData_eq_nil_iff`).
-/

namespace RaceSkeletons

open RaceSkeletons.Path (IsEntryName)

namespace FileSystem

variable {fs fs' : FileSystem} {root : Path} {top location : Location} {names : List String}
  {name extension : String}

/-! ## Closed trees -/

/-- A directory that another file system lets a walk enter was entered before,
if it was there before: so were the directories around it. -/
theorem Closed.entered (h : fs.Closed) (hterms : fs'.toTerms = fs.toTerms)
    (hnames : Entered fs' root top names) (hdir : fs.isDirAt (top ++ names) = true) :
    Entered fs root top names := by
  induction hnames with
  | root => exact .root
  | @child names name _ listed isName fits _ ih =>
      rw [← List.append_assoc] at hdir
      have hnode : fs.nodeAt? (top ++ names ++ [name]) ≠ none := by
        rw [beq_iff_eq.mp hdir]
        exact nofun
      exact (ih (h.isDirAt hnode)).child ((isListed_congr hterms).mp listed) isName fits hdir

/-! ## Files and directories -/

namespace GrowsOutside

variable (h : GrowsOutside top fs fs')

include h

theorem isTree (htree : IsTree fs root top) : IsTree fs' root top where
  wellFormed := h.wellFormed htree.wellFormed
  root := by
    obtain ⟨node, hrewrite, htarget⟩ := h.grows.target? htree.root
    rw [hrewrite.eq nofun] at htarget
    exact htarget
  noLink := by
    intro names target hlink
    rcases h.spares names with hsame | ⟨-, hdir⟩
    · rw [hsame] at hlink
      exact htree.noLink names target hlink
    · rw [hdir] at hlink
      cases hlink

/-- What was there is there. -/
theorem nodeAt?_of_ne (hnode : fs.nodeAt? (top ++ names ++ [name]) ≠ none) :
    fs'.nodeAt? (top ++ names ++ [name]) = fs.nodeAt? (top ++ names ++ [name]) := by
  rw [List.append_assoc] at hnode ⊢
  exact (h.spares _).resolve_right fun hnew => hnode hnew.1

theorem keepsFiles (hclosed : fs.Closed) : KeepsFiles root top fs fs' where
  terms := h.grows.terms
  entered _ hnames := hnames.mono h.grows.terms fun _ => h.grows.isDirAt
  hasFile_iff names name := by
    constructor
    · rintro ⟨hentered, hlisted, hname, hfits, node, hnode, hregular⟩
      have hold : fs.nodeAt? (top ++ names ++ [name]) = some node := by
        rw [List.append_assoc] at hnode ⊢
        rcases h.spares (names ++ [name]) with hsame | ⟨-, hdir⟩
        · rw [← hsame, hnode]
        · -- what came is a directory
          rw [hnode] at hdir
          rw [Option.some.inj hdir] at hregular
          cases hregular
      have hthere : fs.nodeAt? (top ++ names ++ [name]) ≠ none := by
        rw [hold]
        exact nofun
      exact ⟨hclosed.entered h.grows.terms hentered (hclosed.isDirAt hthere),
        (isListed_congr h.grows.terms).mp hlisted, hname, hfits, node, hold, hregular⟩
    · rintro ⟨hentered, hlisted, hname, hfits, node, hnode, hregular⟩
      refine ⟨hentered.mono h.grows.terms fun _ => h.grows.isDirAt,
        (isListed_congr h.grows.terms).mpr hlisted, hname, hfits, node, ?_, hregular⟩
      rw [h.nodeAt?_of_ne (by rw [hnode]; exact nofun), hnode]
  nodeAt? names name hfile := by
    obtain ⟨node, hnode, -⟩ := hfile.isRegular
    exact h.nodeAt?_of_ne (by rw [hnode]; exact nofun)

end GrowsOutside

/-- A normal corpus stays normal. -/
theorem IsNormal.of_growsOutside (h : IsNormal extension fs root top) (hclosed : fs.Closed)
    (hgrows : GrowsOutside top fs fs') : IsNormal extension fs' root top := by
  have hkeeps : KeepsFiles root top fs fs' := hgrows.keepsFiles hclosed
  refine ⟨hgrows.isTree h.isTree, fun names name hfile => ?_, fun names name hfile hhas => ?_⟩
  · have hbefore := (hkeeps.hasFile_iff names name).mp hfile
    refine (h.isSettled names name hbefore).imp_right fun hnode => ?_
    rw [hgrows.nodeAt?_of_ne hnode]
    exact hnode
  · have hbefore := (hkeeps.hasFile_iff names name).mp hfile
    intro bytes mode text hnode
    rw [hkeeps.nodeAt? names name hbefore] at hnode
    exact h.isLeftAlone names name hbefore hhas bytes mode text hnode

/-! ## The combined file -/

theorem block_written (p : Path) (bytes : Bytes) : CombineStep.block (.written p bytes) ≠ [] :=
  List.append_ne_nil_of_right_ne_nil _ (by decide)

theorem combineStep?_eq_written {visit : Visit} {p : Path} {bytes : Bytes}
    (h : combineStep? fs location extension visit = some (.written p bytes)) :
    visit = .file p ∧ p.hasExtension extension = true ∧ fs.readBytes p = .ok bytes := by
  cases visit with
  | file q =>
      rw [combineStep?] at h
      split at h
      · cases h
      · next hhas =>
          split at h
          · cases h
          · split at h
            · next hread =>
                cases h
                exact ⟨rfl, by simpa using hhas, hread⟩
            · cases h
  | _ => cases h

/-- The combined file is empty exactly if no fragment can be read. -/
theorem IsTree.combinedData_eq_nil_iff (h : IsTree fs root top) (hout : ¬ top <+: location)
    (extension : String) :
    combinedData fs root location extension = [] ↔
      ∀ names name, HasFile fs root top names name →
        ((root.below names).join name).hasExtension extension = true →
          ∀ bytes, fs.readBytes ((root.below names).join name) ≠ .ok bytes := by
  rw [combinedData, List.flatMap_eq_nil_iff]
  constructor
  · intro hnone names name hfile hhas bytes hread
    obtain ⟨node, htarget⟩ := h.target?_file hfile
    have hother : (fs.canonical ((root.below names).join name)).toOption ≠ some location := by
      rw [canonical, htarget]
      intro heq
      refine hout ?_
      rw [← Option.some.inj heq, List.append_assoc]
      exact List.prefix_append top _
    refine block_written _ bytes (hnone (.written ((root.below names).join name) bytes) ?_)
    refine List.mem_filterMap.mpr ⟨.file _, (h.mem_walk_iff.mpr ⟨names, name, rfl, hfile⟩).1, ?_⟩
    simp only [combineStep?, hhas, if_neg hother, hread]
    rfl
  · intro hnone step hstep
    obtain ⟨visit, hvisit, hstep⟩ := List.mem_filterMap.mp hstep
    cases step with
    | written p bytes =>
        obtain ⟨rfl, hhas, hread⟩ := combineStep?_eq_written hstep
        obtain ⟨location, mode, htarget⟩ := readBytes_eq_ok_iff.mp hread
        have hisFile := h.wellFormed.isFile_of_target? hvisit htarget
        obtain ⟨names, name, rfl, hfile⟩ := h.mem_walk_iff.mp ⟨hvisit, hisFile⟩
        exact absurd hread (hnone names name hfile hhas bytes)
    | _ => rfl

/-- There is something to combine exactly if there was. -/
theorem KeepsFiles.combinedData_eq_nil_iff (h : KeepsFiles root top fs fs')
    (htree : IsTree fs root top) (htree' : IsTree fs' root top) (hout : ¬ top <+: location)
    (extension : String) :
    combinedData fs' root location extension = [] ↔
      combinedData fs root location extension = [] := by
  rw [htree.combinedData_eq_nil_iff hout, htree'.combinedData_eq_nil_iff hout]
  constructor
  · intro hnone names name hfile hhas bytes
    rw [← h.readBytes htree htree' hfile]
    exact hnone names name ((h.hasFile_iff names name).mpr hfile) hhas bytes
  · intro hnone names name hfile hhas bytes
    have hbefore := (h.hasFile_iff names name).mp hfile
    rw [h.readBytes htree htree' hbefore]
    exact hnone names name hbefore hhas bytes

end FileSystem

end RaceSkeletons
