import RaceSkeletons.Corpus.Rename
import RaceSkeletons.Proofs.Corpus.FileName
import RaceSkeletons.Proofs.Path.Steps

/-!
# When a normal name stays a fragment's name

The extension is put behind a name as it is configured, and then lowered with
the name. A plain name is its own normal name iff it ends in the extension
(`IsPlainName.normalName_eq_self_iff`), and a normal name is plain. So where the
extension is not plain, no normal name ends in it: none is a fragment's name,
and each gets the extension again (`normalName_settles_iff_plain`).

Where the extension is plain, every normal name is normal for good. It is a
fragment's name unless nothing is left before the extension.
-/

namespace RaceSkeletons

open RaceSkeletons.Path (IsEntryName extensionOfName?)

variable {name extension : String}

/-! ## Names that stay -/

/-- A plain name is its own normal name if it has the extension, and only then:
a second extension would stay behind it. -/
theorem IsPlainName.normalName_eq_self_iff (h : IsPlainName name) :
    normalName name extension = name ↔ '.' :: extension.toList <:+ name.toList := by
  have hkept : name.toList.filter (· != '_') = name.toList :=
    List.filter_eq_self.mpr fun c hc => bne_iff_ne.mpr fun heq => h.noUnderscore (heq ▸ hc)
  rw [← String.toList_inj, toList_normalName, withExtension]
  split
  · next hsuffix =>
      refine iff_of_true ?_ (List.isSuffixOf_iff_suffix.mp hsuffix)
      rw [Text.lower_eq_self h.isLower, hkept]
  · next hsuffix =>
      refine iff_of_false ?_ fun hmem => hsuffix (List.isSuffixOf_iff_suffix.mpr hmem)
      rw [Text.lower, Text.lowerFrom_append [] h.isLower, List.filter_append, hkept]
      intro hsame
      cases List.append_right_eq_self.mp hsame

theorem isPlainName_of_subset {part : String} (h : IsPlainName name)
    (hsubset : part.toList ⊆ name.toList) : IsPlainName part where
  lowered := by
    rw [Text.lowered, Text.lower_eq_self fun c hc => h.isLower c (hsubset hc),
      String.ofList_toList]
  noUnderscore := fun hmem => h.noUnderscore (hsubset hmem)

/-- Normal names stay as they are iff the extension does. -/
theorem normalName_normalName_iff (hbare : Settings.isBareExtension extension = true)
    (name : String) :
    normalName (normalName name extension) extension = normalName name extension ↔
      IsPlainName extension := by
  have hplain := isPlainName_normalName name extension
  constructor
  · intro hsame
    obtain ⟨front, hfront⟩ := hplain.normalName_eq_self_iff.mp hsame
    refine isPlainName_of_subset hplain fun c hc => ?_
    rw [← hfront]
    exact List.mem_append_right front (List.mem_cons_of_mem _ hc)
  · exact fun h => IsPlainExtension.normalName_normalName ⟨hbare, h⟩ name

/-! ## Names of fragments -/

theorem extensionOfName?_suffix {name extension : List Char}
    (h : extensionOfName? name = some extension) : extension <:+ name := by
  rw [extensionOfName?] at h
  split at h
  · cases h
  · cases h
  · obtain rfl := Option.some.inj h
    exact List.reverse_prefix.mp (by rw [List.reverse_reverse]; exact List.takeWhile_prefix _)

/-- Dots alone have no extension. -/
theorem isEntryName_of_hasExtension (hne : name ≠ "") (hslash : '/' ∉ name.toList)
    (h : (Path.mk name).hasExtension extension = true) : IsEntryName name := by
  have hdots : ∀ dots : String, (Path.mk dots).fileName? = none → name ≠ dots := by
    rintro dots hdots rfl
    rw [Path.hasExtension, hdots] at h
    cases h
  exact ⟨hne, hdots "." (by decide), hdots ".." (by decide), hslash⟩

theorem hasExtension_name (h : IsEntryName name) :
    (Path.mk name).hasExtension extension = true ↔
      extensionOfName? name.toList = some extension.toList := by
  have hjoin := Path.hasExtension_join ⟨""⟩ h extension
  rw [Path.join, if_pos (.inr rfl)] at hjoin
  rw [hjoin, beq_iff_eq]

/-- A normal name is a fragment's name if the extension is plain and stands
behind more than underscores, and only then. -/
theorem hasExtension_normalName_iff (hbare : Settings.isBareExtension extension = true)
    (hslash : '/' ∉ name.toList) :
    (Path.mk (normalName name extension)).hasExtension extension = true ↔
      IsPlainName extension ∧
        HasStem extension (String.ofList (withExtension name.toList extension.toList)) := by
  have hplain := isPlainName_normalName name extension
  obtain ⟨-, -, hdot⟩ := Settings.isBareExtension_iff.mp hbare
  obtain ⟨stem, hwith, -⟩ := withExtension_eq name.toList extension.toList
  have hstem : HasStem extension (String.ofList (withExtension name.toList extension.toList)) ↔
      ¬ ∀ c ∈ stem, c = '_' := by
    rw [HasStem, String.toList_ofList, hwith]
    constructor
    · rintro ⟨stem', hsame, c, hc, hother⟩ hall
      rw [← List.append_cancel_right hsame] at hc
      exact hother (hall c hc)
    · intro hother
      simp only [not_forall, exists_prop] at hother
      exact ⟨stem, rfl, hother⟩
  -- behind a plain extension the name ends in it, and is a file name
  have hrecognised : ∀ h : IsPlainName extension,
      (Path.mk (normalName name extension)).hasExtension extension = true ↔
        ¬ ∀ c ∈ stem, c = '_' := by
    intro h
    have hext : IsPlainExtension extension := ⟨hbare, h⟩
    obtain ⟨front, hfront, hiff⟩ := hext.normalName_of_stem hwith
    rw [hasExtension_name (hext.isEntryName_normalName hslash), hfront,
      extensionOfName?_append front hdot, ← hiff]
    by_cases hnil : front = []
    · rw [if_pos hnil]
      exact iff_of_false nofun (not_not.mpr hnil)
    · rw [if_neg hnil]
      exact iff_of_true rfl hnil
  rw [hstem]
  refine ⟨fun h => ?_, fun ⟨h, hother⟩ => (hrecognised h).mpr hother⟩
  have hentry := isEntryName_of_hasExtension (normalName_ne_empty name extension)
    (normalName_noSlash (noSlash_of_isBareExtension hbare) hslash) h
  have hsuffix := extensionOfName?_suffix ((hasExtension_name hentry).mp h)
  have hextension := isPlainName_of_subset hplain hsuffix.subset
  exact ⟨hextension, (hrecognised hextension).mp h⟩

/-- **A normal name is a fragment's name, and normal for good, when the extension
is plain and stands behind more than underscores.** With any other extension the
normal name gets it again, and is no fragment's name; with a plain one only
underscores make a name that is hidden. In a directory a name that is recognised
is found with its extension, and the rename pass leaves it alone. -/
theorem normalName_settles_iff_plain (name extension : String)
    (hbare : Settings.isBareExtension extension = true) (hslash : '/' ∉ name.toList) :
    (normalName (normalName name extension) extension = normalName name extension ↔
      IsPlainName extension)
    ∧ ((Path.mk (normalName name extension)).hasExtension extension = true ↔
        IsPlainName extension ∧
          HasStem extension (String.ofList (withExtension name.toList extension.toList)))
    ∧ ((Path.mk (normalName name extension)).hasExtension extension = true →
        ∀ (dir : Path) (fs : FileSystem),
          (dir.join (normalName name extension)).hasExtension extension = true ∧
            renameFile extension fs (dir.join (normalName name extension)) =
              (fs, .normal (dir.join (normalName name extension)))) := by
  refine ⟨normalName_normalName_iff hbare name, hasExtension_normalName_iff hbare hslash,
    fun h dir fs => ?_⟩
  have hentry := isEntryName_of_hasExtension (normalName_ne_empty name extension)
    (normalName_noSlash (noSlash_of_isBareExtension hbare) hslash) h
  have hplain := ((hasExtension_normalName_iff hbare hslash).mp h).1
  refine ⟨?_, ?_⟩
  · rw [Path.hasExtension_join dir hentry, (hasExtension_name hentry).mp h]
    exact beq_self_eq_true _
  · rw [renameFile, Path.fileName_join dir hentry,
      if_pos ((normalName_normalName_iff hbare name).mpr hplain)]

/-- Underscores alone make a hidden name; a capital in the extension makes
names that are not found and get longer. -/
theorem normalName_settles_iff_plain_sample :
    Settings.isBareExtension "go" = true ∧ Settings.isBareExtension "GO" = true
      ∧ (Path.mk (normalName "Worker_1" "go")).hasExtension "go" = true
      ∧ (Path.mk (normalName "__" "go")).hasExtension "go" = false
      ∧ normalName (normalName "a" "GO") "GO" ≠ normalName "a" "GO" := by
  have hgo : Settings.isBareExtension "go" = true := by decide
  have hcapital : Settings.isBareExtension "GO" = true := by decide
  obtain ⟨-, hworker, -⟩ := normalName_settles_iff_plain "Worker_1" "go" hgo (by decide)
  obtain ⟨-, hblank, -⟩ := normalName_settles_iff_plain "__" "go" hgo (by decide)
  obtain ⟨hsettles, -, -⟩ := normalName_settles_iff_plain "a" "GO" hcapital (by decide)
  have hstem : HasStem "go" (String.ofList (withExtension "Worker_1".toList "go".toList)) :=
    ⟨"Worker_1".toList, by decide, 'W', by decide, by decide⟩
  have hplain : IsPlainName "go" := by decide
  refine ⟨hgo, hcapital, hworker.mpr ⟨hplain, hstem⟩, ?_, fun h => ?_⟩
  · refine Bool.eq_false_iff.mpr fun h => ?_
    obtain ⟨stem, hname, c, hc, hother⟩ := (hblank.mp h).2
    have hblanks : ['_', '_'] ++ '.' :: "go".toList = stem ++ '.' :: "go".toList :=
      Eq.trans (by decide) hname
    rw [← List.append_cancel_right hblanks] at hc
    simp only [List.mem_cons, List.not_mem_nil, or_false, or_self] at hc
    exact hother hc
  · exact absurd (hsettles.mp h) (by decide)

end RaceSkeletons
