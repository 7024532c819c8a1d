import RaceSkeletons.Proofs.Corpus.Fragments

/-!
# Cases before and after the rename pass

The rename pass gives the extension to every file. So a file that discovery
ignored beside two fragments can become a third one, and the directory is no
case any more (`discover_renameFiles_stray`). That is the only way for the pass
to lose a case whose fragments have names to keep, and what discovery finds
afterwards is told by counting the steps that add a fragment
(`discover_renameFiles`).
-/

namespace RaceSkeletons

open RaceSkeletons.Path (IsEntryName extensionOfName?)

namespace FileSystem

variable {fs : FileSystem} {root : Path} {top : Location} {entry extension : String}

/-- A case is one after the pass, or excluded with the fragments that were
added. -/
theorem IsTree.examine_renameFiles (h : IsTree fs root top) (hext : IsPlainExtension extension)
    (hentry : Entered fs root top [entry]) {c : Case} {notices : List Notice}
    (hcase : examine fs extension (root.join entry) = .case_ c notices)
    (hstems : ∀ f ∈ c.fragments, HasStem extension f.name) :
    c.dir = root.join entry ∧
      (addedFragments extension c.dir (renameFiles fs root extension).2.steps = 0 →
        ∃ c' notices', examine (renameFiles fs root extension).1 extension (root.join entry) =
            .case_ c' notices' ∧ c'.id = c.id ∧ c'.dir = c.dir ∧
          (c'.fragments.map Fragment.contents).Perm (c.fragments.map Fragment.contents)) ∧
      (addedFragments extension c.dir (renameFiles fs root extension).2.steps ≠ 0 →
        examine (renameFiles fs root extension).1 extension (root.join entry) =
          .malformed ⟨c.id, c.dir,
            2 + addedFragments extension c.dir (renameFiles fs root extension).2.steps,
            extension⟩) := by
  have hlisted : fs.IsListed (top ++ [entry]) := by
    refine Option.eq_none_iff_forall_ne_some.mpr fun e hrefused => ?_
    have hexamine := h.examine_of_unlisted hentry hrefused extension
    rw [Path.below_singleton, hcase] at hexamine
    cases hexamine
  have htwo : (fragmentsAt extension fs (root.join entry) (top ++ [entry])).length = 2 := by
    by_contra hmany
    have hexamine := h.examine_of_ne_two hentry hlisted hmany
    rw [Path.below_singleton, hcase] at hexamine
    cases hexamine
  obtain ⟨c₀, notices₀, hexamine, hid, hdir, hperm⟩ := h.examine_of_two hentry hlisted htwo
  rw [Path.below_singleton] at hexamine hid hdir hperm
  obtain ⟨rfl, rfl⟩ := Finding.case_.inj (hcase.symm.trans hexamine)
  have hnames : ∀ child ∈ fragmentsAt extension fs (root.join entry) (top ++ [entry]),
      HasStem extension child.1 := by
    intro child hchild
    obtain ⟨f, hf, heq⟩ := List.mem_map.mp (hperm.mem_iff.mpr (List.mem_map_of_mem hchild))
    rw [← congrArg Prod.fst heq]
    exact hstems f hf
  have hkeeps := h.keepsFragments_renameFiles hext hentry hnames
  obtain ⟨htree, htidied⟩ := h.of_renameFiles hext
  have hentry' := htidied.entered hentry
  have hlisted' := (isListed_congr htidied.terms).mpr hlisted
  rw [hdir]
  refine ⟨rfl, fun hnone => ?_, fun hadded => ?_⟩
  · obtain ⟨c', notices', hexamine', hid', hdir', hperm'⟩ :=
      htree.examine_of_two hentry' hlisted' (hkeeps.length.trans (by rw [htwo, hnone]))
    refine ⟨c', notices', hexamine', hid'.trans hid.symm, hdir', ?_⟩
    have hbefore := hperm.map Prod.snd
    have hafter := hperm'.map Prod.snd
    have hnodes := congrArg (List.map Node.contents) (hkeeps.nodes hnone)
    simp only [List.map_map, Function.comp_def, Path.below_singleton] at hbefore hafter hnodes
    rw [hnodes] at hafter
    exact hafter.trans hbefore.symm
  · have hlength := hkeeps.length
    rw [htwo] at hlength
    have hmany : (fragmentsAt extension (renameFiles fs root extension).1 (root.join entry)
        (top ++ [entry])).length ≠ 2 := by
      rw [hlength]
      omega
    have hexamine' := htree.examine_of_ne_two hentry' hlisted' hmany
    rw [Path.below_singleton, hlength] at hexamine'
    rw [hexamine', hid]

end FileSystem

open FileSystem

/-- In a tree without links, discovery succeeds exactly if the root can be listed.
Then it succeeds after the rename pass, too, and the pass loses no case, as far as
its fragments have names to keep, but to files that become fragments. Where the
steps of the pass add no fragment to the directory of a case, the directory is a
case with the same two contents afterwards, perhaps the other way round; else it is
excluded, and the number of fragments found there says how many were added. -/
theorem discover_renameFiles {fs : FileSystem} {root : Path} {top : Location} {extension : String}
    (h : IsTree fs root top) (hext : IsPlainExtension extension) :
    ((∃ found, discover fs root extension = .ok found) ↔ fs.IsListed top) ∧
    ∀ found, discover fs root extension = .ok found →
      ∃ after, discover (renameFiles fs root extension).1 root extension = .ok after ∧
        ∀ c ∈ found.cases, (∀ f ∈ c.fragments, HasStem extension f.name) →
          (addedFragments extension c.dir (renameFiles fs root extension).2.steps = 0 →
            ∃ c' ∈ after.cases, c'.id = c.id ∧ c'.dir = c.dir ∧
              (c'.fragments.map Fragment.contents).Perm (c.fragments.map Fragment.contents)) ∧
          (addedFragments extension c.dir (renameFiles fs root extension).2.steps ≠ 0 →
            ⟨c.id, c.dir,
              2 + addedFragments extension c.dir (renameFiles fs root extension).2.steps,
              extension⟩ ∈ after.excluded) := by
  refine ⟨h.exists_discover_iff extension, fun found hfound => ?_⟩
  have hlisted := (h.exists_discover_iff extension).mp ⟨found, hfound⟩
  obtain ⟨htree, htidied⟩ := h.of_renameFiles hext
  have hlisted' := (isListed_congr htidied.terms).mpr hlisted
  obtain ⟨found', hfound', hcases, -⟩ := h.discover_eq_ok hlisted extension
  obtain rfl := Except.ok.inj (hfound.symm.trans hfound')
  obtain ⟨after, hafter, hcases', hexcluded'⟩ := htree.discover_eq_ok hlisted' extension
  refine ⟨after, hafter, fun c hc hstems => ?_⟩
  obtain ⟨entry, notices, hentry, hexamine⟩ := (hcases c).mp hc
  obtain ⟨-, hkept, hlost⟩ := h.examine_renameFiles hext hentry hexamine hstems
  refine ⟨fun hnone => ?_, fun hadded => ?_⟩
  · obtain ⟨c', notices', hexamine', hsame⟩ := hkept hnone
    exact ⟨c', (hcases' c').mpr ⟨entry, notices', htidied.entered hentry, hexamine'⟩, hsame⟩
  · refine (hexcluded' _).mpr ⟨entry, htidied.entered hentry, ?_⟩
    rw [hlost hadded]
    rfl

/-- A corpus below `r` with one case, whose fragments change places when they
get their normal names. -/
def swappedFiles : FileSystem where
  entries := [⟨["r"], .dir⟩, ⟨["r", "c"], .dir⟩, ⟨["r", "c", "B0.go"], .file [112] .plain⟩,
    ⟨["r", "c", "a_1.go"], .file [113] .plain⟩]
  workingDir := []

theorem isTree_swapped : IsTree swappedFiles ⟨"r"⟩ ["r"] :=
  isTree_of_entries ⟨by decide, by decide, nofun⟩ (by cbv) (by decide)

theorem entered_swapped : Entered swappedFiles ⟨"r"⟩ ["r"] ["c"] :=
  entered_singleton_iff.mpr (by decide)

/-- The case with other places: nothing else lies in its directory. -/
theorem discover_renameFiles_swapped :
    IsTree swappedFiles ⟨"r"⟩ ["r"] ∧ swappedFiles.IsListed ["r"] ∧ IsPlainExtension "go" ∧
      ∃ found after c c', discover swappedFiles ⟨"r"⟩ "go" = .ok found ∧ c ∈ found.cases ∧
        (∀ f ∈ c.fragments, HasStem "go" f.name) ∧
        discover (renameFiles swappedFiles ⟨"r"⟩ "go").1 ⟨"r"⟩ "go" = .ok after ∧
        c' ∈ after.cases ∧ c'.id = c.id ∧
        (c'.fragments.map Fragment.contents).Perm (c.fragments.map Fragment.contents) := by
  have hext : IsPlainExtension "go" := by decide
  obtain ⟨hsucceeds, hkeeps⟩ := discover_renameFiles isTree_swapped hext
  obtain ⟨found, hfound⟩ := hsucceeds.mpr rfl
  obtain ⟨after, hafter, hkept⟩ := hkeeps found hfound
  have htwo : fragmentsAt "go" swappedFiles (Path.below ⟨"r"⟩ ["c"]) (["r"] ++ ["c"]) =
      [("B0.go", .file [112] .plain), ("a_1.go", .file [113] .plain)] := by
    decide
  obtain ⟨c, notices, hexamine, -, hdir, hperm⟩ :=
    isTree_swapped.examine_of_two entered_swapped rfl (congrArg List.length htwo)
  have hc : c ∈ found.cases := by
    obtain ⟨found', hfound', hcases, -⟩ := isTree_swapped.discover_eq_ok rfl "go"
    rw [hfound] at hfound'
    obtain rfl := Except.ok.inj hfound'
    exact (hcases c).mpr ⟨"c", notices, entered_swapped, hexamine⟩
  have hstems : ∀ f ∈ c.fragments, HasStem "go" f.name := by
    intro f hf
    have hmem := hperm.mem_iff.mp (List.mem_map_of_mem hf)
    simp only [htwo, List.map_cons, List.map_nil, List.mem_cons, Prod.mk.injEq] at hmem
    rcases hmem with ⟨hname, -⟩ | ⟨hname, -⟩ | hnil
    · exact ⟨['B', '0'], by rw [hname]; rfl, 'B', .head _, by decide⟩
    · exact ⟨['a', '_', '1'], by rw [hname]; rfl, 'a', .head _, by decide⟩
    · cases hnil
  have hnone : addedFragments "go" (Path.join ⟨"r"⟩ "c")
      (renameFiles swappedFiles ⟨"r"⟩ "go").2.steps = 0 := by
    rw [isTree_swapped.wellFormed.addedFragments_renameFiles]
    refine isTree_swapped.addedFragments_eq_zero hext (.refl "go" swappedFiles)
      isTree_swapped.arePathsOf_filesInReach entered_swapped fun name hfile => ?_
    obtain ⟨node, hnode, -⟩ := hfile.isRegular
    have hchild := isTree_swapped.wellFormed.mem_children.mpr hnode
    have hchildren : swappedFiles.children (["r"] ++ ["c"]) =
        [("B0.go", .file [112] .plain), ("a_1.go", .file [113] .plain)] := by
      decide
    rw [hchildren] at hchild
    rcases List.mem_pair.mp hchild with heq | heq
    · obtain ⟨rfl, -⟩ := Prod.mk.inj heq
      decide
    · obtain ⟨rfl, -⟩ := Prod.mk.inj heq
      decide
  obtain ⟨c', hc', hid, -, hcontents⟩ := (hkept c hc hstems).1 (hdir ▸ hnone)
  exact ⟨isTree_swapped, rfl, hext, found, after, c, c', hfound, hc, hstems, hafter, hc', hid,
    hcontents⟩

/-! ## A file that becomes a fragment -/

/-- A corpus below `r` with one case, and a text beside its fragments. -/
def strayFiles : FileSystem where
  entries := [⟨["r"], .dir⟩, ⟨["r", "c"], .dir⟩, ⟨["r", "c", "a.go"], .file [112] .plain⟩,
    ⟨["r", "c", "b.go"], .file [112] .plain⟩, ⟨["r", "c", "notes.txt"], .file [110] .plain⟩]
  workingDir := []

theorem isTree_stray : IsTree strayFiles ⟨"r"⟩ ["r"] :=
  isTree_of_entries ⟨by decide, by decide, nofun⟩ (by cbv) (by decide)

theorem entered_stray : Entered strayFiles ⟨"r"⟩ ["r"] ["c"] :=
  entered_singleton_iff.mpr (by decide)

theorem isRegular_stray {name : String} (h : name ∈ ["a.go", "b.go", "notes.txt"]) :
    IsEntryName name ∧ Fits ((Path.join ⟨"r"⟩ "c").join name) ∧
      (strayFiles.nodeAt? ["r", "c", name]).map Node.isRegular = some true := by
  revert name
  decide

theorem files_stray : (strayFiles.walk byName ⟨"r"⟩).filterMap Visit.file? =
    ["a.go", "b.go", "notes.txt"].map (Path.join ⟨"r"⟩ "c").join := by
  have hdirs : (strayFiles.children ["r"]).mergeSort byName = [("c", .dir)] := by
    decide +kernel
  have hfiles : (strayFiles.children ["r", "c"]).mergeSort byName =
      [("a.go", .file [112] .plain), ("b.go", .file [112] .plain),
        ("notes.txt", .file [110] .plain)] :=
    List.mergeSort_of_pairwise (by decide)
  have hroot : strayFiles.listDir ⟨"r"⟩ = .ok ["r"] :=
    listDir_eq_ok_iff.mpr ⟨isTree_stray.root, rfl⟩
  have hcase : strayFiles.listDir (Path.join ⟨"r"⟩ "c") = .ok ["r", "c"] :=
    isTree_stray.listDir_entered entered_stray rfl
  have hdepth : strayFiles.walkDepth - 1 = 46 + 1 + 1 := by decide
  have hfile : ∀ p bytes ways, strayFiles.walkWithin byName (46 + 1) ways p (.file bytes .plain) =
      [.file p] := fun _ _ => walkWithin_of_showsFile (.inl rfl) byName 46
  rw [walk_of_listDir hroot, hdirs, hdepth, List.flatMap_singleton,
    walkWithin_of_listDir rfl hcase, hfiles]
  simp only [List.flatMap_cons, List.flatMap_nil, hfile]
  rfl

/-- The text gets the extension. -/
theorem addedFragments_stray :
    addedFragments "go" (Path.join ⟨"r"⟩ "c") (renameFiles strayFiles ⟨"r"⟩ "go").2.steps ≠ 0 := by
  have hext : IsPlainExtension "go" := by decide
  have hsame : ∀ name ∈ ["a.go", "b.go"],
      (renameFile "go" strayFiles ((Path.join ⟨"r"⟩ "c").join name)).1 = strayFiles := by
    intro name hname
    have hsettled : IsEntryName name ∧
        strayFiles.nodeAt? ["r", "c", normalName name "go"] ≠ none := by
      revert name
      decide
    exact (isTree_stray.renameFile_of_settled hext entered_stray hsettled.1 (.inr hsettled.2)).1
  obtain ⟨hname, hfits, hregular⟩ := isRegular_stray
    (by decide : "notes.txt" ∈ ["a.go", "b.go", "notes.txt"])
  obtain ⟨node, hnode, htrue⟩ := Option.map_eq_some_iff.mp hregular
  have hfree : ¬ IsSettled "go" strayFiles ⟨"r"⟩ ["r"] ["c"] "notes.txt" := by
    rw [IsSettled]
    decide
  obtain ⟨fs', hrenamed, -, -⟩ :=
    isTree_stray.renameFile_of_free hext entered_stray hname hfits hnode htrue hfree
  have hadds := (isTree_stray.addsFragment_renamed entered_stray entered_stray hname
    (by decide)).mpr (by decide : ["c"] = ["c"] ∧
      extensionOfName? "notes.txt".toList ≠ some "go".toList ∧
        extensionOfName? (normalName "notes.txt" "go").toList = some "go".toList)
  intro hnone
  refine List.countP_eq_zero.mp hnone _ ?_ hadds
  rw [renameFiles, files_stray]
  simp only [List.map_cons, List.map_nil, renameEach, hsame _ (.head _),
    hsame _ (.tail _ (.head _))]
  have hlast : (renameFile "go" strayFiles ((Path.join ⟨"r"⟩ "c").join "notes.txt")).2 = _ :=
    congrArg Prod.snd hrenamed
  rw [hlast]
  exact .tail _ (.tail _ (.head _))

/-- Where a text lies beside the fragments of a case, the rename pass can make
a third fragment of it, and the case is lost. -/
theorem discover_renameFiles_stray :
    IsTree strayFiles ⟨"r"⟩ ["r"] ∧ IsPlainExtension "go" ∧
      ∃ found after, discover strayFiles ⟨"r"⟩ "go" = .ok found ∧ found.cases ≠ [] ∧
        discover (renameFiles strayFiles ⟨"r"⟩ "go").1 ⟨"r"⟩ "go" = .ok after ∧
          after.cases = [] := by
  have hext : IsPlainExtension "go" := by decide
  obtain ⟨htree, htidied⟩ := isTree_stray.of_renameFiles hext
  obtain ⟨found, hfound, hcases, -⟩ := isTree_stray.discover_eq_ok rfl "go"
  obtain ⟨after, hafter, hcases', -⟩ :=
    htree.discover_eq_ok ((isListed_congr htidied.terms).mpr rfl) "go"
  have htwo : fragmentsAt "go" strayFiles (Path.below ⟨"r"⟩ ["c"]) (["r"] ++ ["c"]) =
      [("a.go", .file [112] .plain), ("b.go", .file [112] .plain)] := by
    decide
  obtain ⟨c, notices, hexamine, -, hdir, hperm⟩ :=
    isTree_stray.examine_of_two entered_stray rfl (congrArg List.length htwo)
  have hstems : ∀ f ∈ c.fragments, HasStem "go" f.name := by
    intro f hf
    have hmem := hperm.mem_iff.mp (List.mem_map_of_mem hf)
    simp only [htwo, List.map_cons, List.map_nil, List.mem_cons, Prod.mk.injEq] at hmem
    rcases hmem with ⟨hname, -⟩ | ⟨hname, -⟩ | hnil
    · exact ⟨['a'], by rw [hname]; rfl, 'a', .head _, by decide⟩
    · exact ⟨['b'], by rw [hname]; rfl, 'b', .head _, by decide⟩
    · cases hnil
  obtain ⟨-, -, hlost⟩ := isTree_stray.examine_renameFiles hext entered_stray hexamine hstems
  refine ⟨isTree_stray, hext, found, after, hfound, ?_, hafter, ?_⟩
  · exact List.ne_nil_of_mem ((hcases c).mpr ⟨"c", notices, entered_stray, hexamine⟩)
  · refine List.eq_nil_iff_forall_not_mem.mpr fun c' hc' => ?_
    obtain ⟨entry, notices', hentry, hexamine'⟩ := (hcases' c').mp hc'
    -- the one directory below the root is the one that was a case
    have hisDir := (entered_singleton_iff.mp (htidied.entered_iff.mp hentry)).2.2.2
    have hchild := isTree_stray.wellFormed.mem_children.mpr (beq_iff_eq.mp hisDir)
    have hchildren : strayFiles.children ["r"] = [("c", .dir)] := by decide
    rw [hchildren] at hchild
    obtain ⟨rfl, -⟩ := Prod.mk.inj (List.mem_singleton.mp hchild)
    rw [hlost (hdir ▸ addedFragments_stray)] at hexamine'
    cases hexamine'

end RaceSkeletons
