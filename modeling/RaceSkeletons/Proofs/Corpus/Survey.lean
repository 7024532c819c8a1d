import Mathlib.Data.List.Sort
import RaceSkeletons.Proofs.Corpus.Examine

/-!
# Discovery and the files it sees

Discovery lists directories and fragments in ascending order, no two of them
equal, so a list is told by what is in it (`eq_of_ascending`). In trees without
links that are the directories that a walk enters and the files it meets. Two
trees with the same files (`FileSystem.KeepsFiles`) therefore have the same
cases, even if the second has directories that the first has not: these hold no
file, so they are no cases (`KeepsFiles.cases_survey`).
-/

namespace RaceSkeletons

open RaceSkeletons.Path (IsEntryName)

/-! ## Ascending lists -/

section Ascending

variable {α : Type} (cmp : α → α → Ordering) [Std.TransCmp cmp] {l l' : List α}

/-- Sorting a list without equal elements makes it ascending. -/
theorem ascending_mergeSort (h : l.Pairwise fun a b => cmp a b ≠ .eq) :
    (l.mergeSort fun a b => (cmp a b).isLE).Pairwise fun a b => cmp a b = .lt := by
  have hsorted : (l.mergeSort fun a b => (cmp a b).isLE).Pairwise fun a b => (cmp a b).isLE :=
    List.pairwise_mergeSort (fun _ _ _ => Std.TransCmp.isLE_trans)
      (fun a b => by
        have hswap : cmp b a = (cmp a b).swap := Std.OrientedCmp.eq_swap
        rw [hswap]
        cases cmp a b <;> rfl) l
  have hdistinct : (l.mergeSort fun a b => (cmp a b).isLE).Pairwise fun a b => cmp a b ≠ .eq :=
    (List.mergeSort_perm l _).symm.pairwise h fun hne heq => hne (Std.OrientedCmp.eq_comm.mp heq)
  refine (hsorted.and hdistinct).imp fun {a b} ⟨hle, hne⟩ => ?_
  cases hcmp : cmp a b with
  | lt => rfl
  | eq => exact absurd hcmp hne
  | gt => rw [hcmp] at hle; cases hle

/-- An ascending list is told by its elements. -/
theorem eq_of_ascending (h : l.Pairwise fun a b => cmp a b = .lt)
    (h' : l'.Pairwise fun a b => cmp a b = .lt) (hmem : ∀ a, a ∈ l ↔ a ∈ l') : l = l' := by
  have : Std.Irrefl fun a b => cmp a b = .lt :=
    ⟨fun a hlt => absurd hlt (Std.OrientedCmp.not_lt_of_lt hlt)⟩
  have : Std.Antisymm fun a b => cmp a b = .lt :=
    ⟨fun a b hlt hgt => absurd hlt (Std.OrientedCmp.not_lt_of_lt hgt)⟩
  exact h.eq_of_mem_iff h' hmem

end Ascending

namespace FileSystem

variable {fs fs' : FileSystem} {root p : Path} {top : Location} {names : List String}
  {entry extension : String}

/-! ## What discovery lists -/

namespace IsTree

variable (h : IsTree fs root top)

include h

/-- The fragments of a directory, in ascending order of their names. -/
theorem fragmentPaths_eq (hnames : Entered fs root top names)
    (hlisted : fs.IsListed (top ++ names)) (extension : String) :
    ∃ paths, fragmentPaths fs (root.below names) extension = .ok paths ∧
      (paths.Pairwise fun p q => compareOn Path.fileName p q = .lt) ∧
      ∀ p, p ∈ paths ↔ ∃ name, p = (root.below names).join name ∧
        HasFile fs root top names name ∧ p.hasExtension extension = true := by
  refine ⟨_, h.fragmentPaths_entered hnames hlisted extension, ascending_mergeSort _ ?_,
    fun p => ?_⟩
  · rw [List.pairwise_map]
    have hdistinct : (fragmentsAt extension fs (root.below names) (top ++ names)).Pairwise
        fun a b => a.1 ≠ b.1 :=
      (List.pairwise_map.mp (h.wellFormed.nodup_children _)).filter _
    refine hdistinct.imp_of_mem fun {a b} ha hb hne heq => hne ?_
    have hname : ∀ child ∈ fragmentsAt extension fs (root.below names) (top ++ names),
        ((root.below names).join child.1).fileName = child.1 := fun child hchild =>
      Path.fileName_join _ (h.wellFormed.isEntryName_of_children (List.mem_of_mem_filter hchild))
    rw [compareOn, hname a ha, hname b hb] at heq
    exact Std.LawfulEqOrd.eq_of_compare heq
  · rw [List.mem_mergeSort, List.mem_map]
    constructor
    · rintro ⟨child, hchild, rfl⟩
      obtain ⟨hmem, hfragment⟩ := List.mem_filter.mp hchild
      have hname := h.wellFormed.isEntryName_of_children hmem
      obtain ⟨hfile, hhas⟩ := (h.isFragmentOf_iff hnames hmem extension).mp hfragment
      obtain ⟨hfits, hregular⟩ := (h.isFile_join_iff hnames hname).mp hfile
      exact ⟨child.1, rfl, ⟨hnames, hlisted, hname, hfits, hregular⟩, hhas⟩
    · rintro ⟨name, rfl, hfile, hhas⟩
      obtain ⟨node, hnode, hregular⟩ := hfile.isRegular
      have hmem : (name, node) ∈ fs.children (top ++ names) := h.wellFormed.mem_children.mpr hnode
      refine ⟨(name, node), List.mem_filter.mpr ⟨hmem, ?_⟩, rfl⟩
      refine (h.isFragmentOf_iff hnames hmem extension).mpr ⟨?_, hhas⟩
      exact (h.isFile_join_iff hnames hfile.isName).mpr ⟨hfile.fits, node, hnode, hregular⟩

/-- The directories below the root, in ascending order. -/
theorem survey_eq (hlisted : fs.IsListed top) (extension : String) :
    ∃ dirs : List Path, survey fs root extension = .ok (dirs.map (examine fs extension)) ∧
      (dirs.Pairwise fun p q => p.order q = .lt) ∧
      ∀ p, p ∈ dirs ↔ ∃ entry, p = root.join entry ∧ Entered fs root top [entry] := by
  obtain ⟨dirs, hdirs, hmem⟩ := h.subdirectories_eq hlisted
  refine ⟨dirs, by rw [survey_def, h.checkRoot_eq_ok, hdirs], ?_, hmem⟩
  have hentries := h.entryPaths_entered .root (by rwa [List.append_nil])
  rw [List.append_nil, Path.below_nil] at hentries
  have hdistinct := (h.wellFormed.entryPaths hentries).2
  rw [subdirectories_def, hentries] at hdirs
  obtain rfl := Except.ok.inj hdirs
  refine ascending_mergeSort _ ?_
  refine ((List.pairwise_map.mp hdistinct).filter _).imp fun hne heq => hne ?_
  exact Path.order_eq_iff.mp heq

/-- The fragments of all cases are files. -/
theorem hasFile_of_survey {findings : List Finding}
    (hsurvey : survey fs root extension = .ok findings)
    (hp : p ∈ (Discovery.ofFindings findings).fragments.map (·.path)) :
    ∃ names name, p = (root.below names).join name ∧ HasFile fs root top names name := by
  obtain ⟨dirs, hdirs, -, hmem⟩ := h.survey_eq (h.isListed_of_survey hsurvey) extension
  rw [hdirs] at hsurvey
  obtain rfl := Except.ok.inj hsurvey
  rw [fragments_ofFindings, List.flatMap_map, List.mem_flatMap] at hp
  obtain ⟨dir, hdir, hp⟩ := hp
  obtain ⟨entry, rfl, hentry⟩ := (hmem dir).mp hdir
  cases hrefused : fs.unlisted.lookup (top ++ [entry]) with
  | some e =>
      have hexamine := h.examine_of_unlisted hentry hrefused extension
      rw [Path.below_singleton] at hexamine
      rw [hexamine] at hp
      cases hp
  | none =>
      obtain ⟨paths, hpaths, -, hfiles⟩ := h.fragmentPaths_eq hentry hrefused extension
      rw [Path.below_singleton] at hpaths
      rw [examine_def, hpaths] at hp
      have hlisted : p ∈ paths := by
        split at hp
        · cases hp
        · next heq =>
            obtain rfl := Except.ok.inj heq
            simpa only [Finding.fragmentPaths, Fragment.load_path] using hp
        · cases hp
      obtain ⟨name, hname, hfile, -⟩ := (hfiles p).mp hlisted
      exact ⟨[entry], name, hname, hfile⟩

end IsTree

/-! ## Trees with the same files -/

/-- `fs'` has the files of `fs` below the root with the same contents, and the
directories. -/
structure KeepsFiles (root : Path) (top : Location) (fs fs' : FileSystem) : Prop where
  terms : fs'.toTerms = fs.toTerms
  entered : ∀ names, Entered fs root top names → Entered fs' root top names
  hasFile_iff : ∀ names name, HasFile fs' root top names name ↔ HasFile fs root top names name
  nodeAt? : ∀ names name, HasFile fs root top names name →
    fs'.nodeAt? (top ++ names ++ [name]) = fs.nodeAt? (top ++ names ++ [name])

namespace KeepsFiles

variable (h : KeepsFiles root top fs fs') (htree : IsTree fs root top)
  (htree' : IsTree fs' root top)

include h htree htree'

theorem target? {name : String} (hfile : HasFile fs root top names name) :
    fs'.target? ((root.below names).join name) = fs.target? ((root.below names).join name) := by
  rw [htree.target?_join hfile.entered hfile.isName hfile.fits,
    htree'.target?_join (h.entered names hfile.entered) hfile.isName hfile.fits,
    h.nodeAt? names name hfile]

theorem readBytes {name : String} (hfile : HasFile fs root top names name) :
    fs'.readBytes ((root.below names).join name) =
      fs.readBytes ((root.below names).join name) := by
  rw [FileSystem.readBytes, FileSystem.readBytes, h.target? htree htree' hfile]

/-- A directory is examined as before. -/
theorem examine (hnames : Entered fs root top names) (extension : String) :
    examine fs' extension (root.below names) = examine fs extension (root.below names) := by
  have hnames' := h.entered names hnames
  cases hrefused : fs.unlisted.lookup (top ++ names) with
  | some e =>
      rw [htree.examine_of_unlisted hnames hrefused, htree'.examine_of_unlisted hnames']
      rw [h.terms, hrefused]
  | none =>
      have hlisted' := (isListed_congr h.terms).mpr hrefused
      obtain ⟨paths, hpaths, hascending, hmem⟩ :=
        htree.fragmentPaths_eq hnames hrefused extension
      obtain ⟨paths', hpaths', hascending', hmem'⟩ :=
        htree'.fragmentPaths_eq hnames' hlisted' extension
      obtain rfl : paths' = paths := by
        refine eq_of_ascending _ hascending' hascending fun p => ?_
        rw [hmem, hmem']
        simp only [h.hasFile_iff]
      have hread : ∀ p ∈ paths', fs'.readBytes p = fs.readBytes p := by
        intro p hp
        obtain ⟨name, rfl, hfile, -⟩ := (hmem p).mp hp
        exact h.readBytes htree htree' hfile
      rw [examine_def, examine_def, hpaths, hpaths']
      split
      · rfl
      · next first second heq =>
          obtain rfl := Except.ok.inj heq
          have hfirst := hread first List.mem_cons_self
          have hsecond := hread second (List.mem_cons_of_mem _ List.mem_cons_self)
          simp only [Fragment.load, Fragment.loadNotices, hfirst, hsecond]
      · next heq =>
          obtain rfl := Except.ok.inj heq
          rfl

omit htree in
/-- A directory that was not there before is no case. -/
theorem case?_examine_new (hentry : Entered fs' root top [entry])
    (hnew : ¬ Entered fs root top [entry]) (extension : String) :
    (RaceSkeletons.examine fs' extension (root.join entry)).case? = none := by
  cases hrefused : fs'.unlisted.lookup (top ++ [entry]) with
  | some e =>
      have hexamine := htree'.examine_of_unlisted hentry hrefused extension
      rw [Path.below_singleton] at hexamine
      rw [hexamine]
      rfl
  | none =>
      obtain ⟨paths, hpaths, -, hmem⟩ := htree'.fragmentPaths_eq hentry hrefused extension
      obtain rfl : paths = [] := by
        refine List.eq_nil_iff_forall_not_mem.mpr fun p hp => ?_
        obtain ⟨name, -, hfile, -⟩ := (hmem p).mp hp
        exact hnew ((h.hasFile_iff _ _).mp hfile).entered
      rw [Path.below_singleton] at hpaths
      rw [examine_def, hpaths]
      rfl

/-- The cases are the same. -/
theorem cases_survey (hlisted : fs.IsListed top) (extension : String) :
    ∃ findings findings', survey fs root extension = .ok findings ∧
      survey fs' root extension = .ok findings' ∧
      (Discovery.ofFindings findings').cases = (Discovery.ofFindings findings).cases := by
  obtain ⟨dirs, hsurvey, hascending, hmem⟩ := htree.survey_eq hlisted extension
  obtain ⟨dirs', hsurvey', hascending', hmem'⟩ :=
    htree'.survey_eq ((isListed_congr h.terms).mpr hlisted) extension
  refine ⟨_, _, hsurvey, hsurvey', ?_⟩
  have hkept : dirs'.filter (· ∈ dirs) = dirs := by
    refine eq_of_ascending Path.order (hascending'.filter _) hascending fun p => ?_
    rw [List.mem_filter, decide_eq_true_eq, and_iff_right_iff_imp, hmem, hmem']
    rintro ⟨entry, hp, hentry⟩
    exact ⟨entry, hp, h.entered _ hentry⟩
  have hnew : ∀ p ∈ dirs', p ∉ dirs → (RaceSkeletons.examine fs' extension p).case? = none := by
    intro p hp hno
    obtain ⟨entry, rfl, hentry⟩ := (hmem' p).mp hp
    exact h.case?_examine_new htree' hentry
      (fun hold => hno ((hmem _).mpr ⟨entry, rfl, hold⟩)) extension
  have hold : ∀ p ∈ dirs, RaceSkeletons.examine fs' extension p =
      RaceSkeletons.examine fs extension p := by
    intro p hp
    obtain ⟨entry, rfl, hentry⟩ := (hmem p).mp hp
    exact h.examine htree htree' hentry extension
  simp only [Discovery.ofFindings, List.filterMap_map, Function.comp_def]
  calc dirs'.filterMap (fun p => (RaceSkeletons.examine fs' extension p).case?)
    _ = dirs'.filterMap fun p => if decide (p ∈ dirs) = true then
          (RaceSkeletons.examine fs extension p).case? else none := by
        refine List.filterMap_congr fun p hp => ?_
        split
        · next hmem => rw [hold p (of_decide_eq_true hmem)]
        · next hno => exact hnew p hp fun hmem => hno (decide_eq_true hmem)
    _ = (dirs'.filter (· ∈ dirs)).filterMap fun p =>
          (RaceSkeletons.examine fs extension p).case? := List.filterMap_filter.symm
    _ = dirs.filterMap fun p => (RaceSkeletons.examine fs extension p).case? := by rw [hkept]

end KeepsFiles

end FileSystem

end RaceSkeletons
