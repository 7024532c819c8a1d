import RaceSkeletons.Corpus.FileName
import RaceSkeletons.Proofs.Path.Join
import RaceSkeletons.Proofs.Settings
import RaceSkeletons.Proofs.Text.Lower

/-!
# Normal names are normal

A normal name is in lower case and has no underscores (`IsPlainName`), whatever
name it was made from. If the extension is plain too (`IsPlainExtension`), the
normal name ends in it and is its own normal name
(`normalName_normalName`), so normalizing names twice is normalizing them once.
The normal name has the extension in the sense of paths unless nothing but
underscores stood before it (`extensionOfName?_normalName`).
-/

namespace RaceSkeletons

open RaceSkeletons.Path (IsEntryName extensionOfName?)

variable {name extension : String}

/-- A name in lower case and without underscores. -/
structure IsPlainName (name : String) : Prop where
  lowered : Text.lowered name = name
  noUnderscore : '_' ∉ name.toList

instance (name : String) : Decidable (IsPlainName name) :=
  decidable_of_iff (Text.lowered name = name ∧ '_' ∉ name.toList)
    ⟨fun ⟨h₁, h₂⟩ => ⟨h₁, h₂⟩, fun h => ⟨h.lowered, h.noUnderscore⟩⟩

/-- An extension that normalization leaves as it is. -/
structure IsPlainExtension (extension : String) : Prop where
  bare : Settings.isBareExtension extension = true
  plain : IsPlainName extension

instance (extension : String) : Decidable (IsPlainExtension extension) :=
  decidable_of_iff (Settings.isBareExtension extension = true ∧ IsPlainName extension)
    ⟨fun ⟨h₁, h₂⟩ => ⟨h₁, h₂⟩, fun h => ⟨h.bare, h.plain⟩⟩

theorem IsPlainName.isLower (h : IsPlainName name) : ∀ c ∈ name.toList, Text.IsLower c := by
  intro c hc
  have hlowered := congrArg String.toList h.lowered
  rw [Text.lowered, String.toList_ofList] at hlowered
  rw [← hlowered] at hc
  exact Text.isLower_of_mem_lower hc

/-! ## Bare extensions -/

theorem ne_nil_of_isBareExtension (h : Settings.isBareExtension extension = true) :
    extension.toList ≠ [] :=
  fun hnil => (Settings.isBareExtension_iff.mp h).1 (String.toList_eq_nil_iff.mp hnil)

theorem noSlash_of_isBareExtension (h : Settings.isBareExtension extension = true) :
    '/' ∉ extension.toList :=
  (Settings.isBareExtension_iff.mp h).2.1

theorem IsPlainExtension.noSlash (h : IsPlainExtension extension) : '/' ∉ extension.toList :=
  noSlash_of_isBareExtension h.bare

/-! ## Normal names -/

theorem toList_normalName (name extension : String) : (normalName name extension).toList =
    (Text.lower (withExtension name.toList extension.toList)).filter (· != '_') := by
  rw [normalName, String.toList_ofList]

theorem withExtension_eq (name extension : List Char) :
    ∃ stem, withExtension name extension = stem ++ '.' :: extension ∧
      (stem ++ '.' :: extension = name ∨ stem = name) := by
  rw [withExtension]
  split
  · next hsuffix =>
      obtain ⟨stem, hstem⟩ := List.isSuffixOf_iff_suffix.mp hsuffix
      exact ⟨stem, hstem.symm, .inl hstem⟩
  · exact ⟨name, rfl, .inr rfl⟩

theorem isPlainName_normalName (name extension : String) :
    IsPlainName (normalName name extension) where
  lowered := by
    rw [Text.lowered, Text.lower_eq_self, String.ofList_toList]
    intro c hc
    rw [toList_normalName] at hc
    exact Text.isLower_of_mem_lower (List.mem_filter.mp hc).1
  noUnderscore := by
    rw [toList_normalName]
    intro hmem
    exact absurd (List.mem_filter.mp hmem).2 (by decide)

/-- The normal name of an entry may be a dot or two, but it can be walked
through. -/
theorem normalName_noSlash (hslash : '/' ∉ extension.toList)
    (h : '/' ∉ name.toList) : '/' ∉ (normalName name extension).toList := by
  rw [toList_normalName]
  intro hmem
  have hgiven := Text.mem_of_mem_lower (List.mem_filter.mp hmem).1 (by decide)
  obtain ⟨stem, hstem, hname⟩ := withExtension_eq name.toList extension.toList
  rw [hstem, List.mem_append, List.mem_cons] at hgiven
  rcases hgiven with hgiven | hgiven | hgiven
  · rcases hname with hname | rfl
    · exact h (hname ▸ List.mem_append_left _ hgiven)
    · exact h hgiven
  · exact absurd hgiven (by decide)
  · exact hslash hgiven

theorem normalName_ne_empty (name extension : String) : normalName name extension ≠ "" := by
  obtain ⟨stem, hstem, -⟩ := withExtension_eq name.toList extension.toList
  have hdot : '.' ∈ (normalName name extension).toList := by
    rw [toList_normalName, hstem]
    refine List.mem_filter.mpr ⟨Text.mem_lower ?_ (by decide), by decide⟩
    exact List.mem_append_right stem List.mem_cons_self
  intro hempty
  rw [hempty] at hdot
  exact List.not_mem_nil hdot

/-! ## Plain extensions -/

/-- Behind a plain extension nothing changes: the stem is lowered and loses its
underscores. Nothing is left of it only if it had nothing else. -/
theorem IsPlainExtension.normalName_of_stem (h : IsPlainExtension extension) {stem : List Char}
    (hstem : withExtension name.toList extension.toList = stem ++ '.' :: extension.toList) :
    ∃ front, (normalName name extension).toList = front ++ '.' :: extension.toList ∧
      (front = [] ↔ ∀ c ∈ stem, c = '_') := by
  have hlower : ∀ c ∈ '.' :: extension.toList, Text.IsLower c :=
    List.forall_mem_cons.mpr ⟨by decide, h.plain.isLower⟩
  obtain ⟨front, hfront, hiff⟩ := Text.lower_append stem hlower
  have hkept : ('.' :: extension.toList).filter (· != '_') = '.' :: extension.toList := by
    refine List.filter_eq_self.mpr fun c hc => bne_iff_ne.mpr ?_
    rintro rfl
    rcases List.mem_cons.mp hc with hdot | hmem
    · exact absurd hdot (by decide)
    · exact h.plain.noUnderscore hmem
  refine ⟨front.filter (· != '_'), ?_, ?_⟩
  · rw [toList_normalName, hstem, hfront, List.filter_append, hkept]
  · rw [← hiff, List.filter_eq_nil_iff]
    simp only [bne_iff_ne, ne_eq, Decidable.not_not]

/-- A normal name ends in the extension. Nothing is before it only if nothing
but underscores was. -/
theorem IsPlainExtension.normalName_eq (h : IsPlainExtension extension) (name : String) :
    ∃ stem front, (normalName name extension).toList = front ++ '.' :: extension.toList ∧
      (stem ++ '.' :: extension.toList = name.toList ∨ stem = name.toList) ∧
      (front = [] ↔ ∀ c ∈ stem, c = '_') := by
  obtain ⟨stem, hstem, hname⟩ := withExtension_eq name.toList extension.toList
  obtain ⟨front, hfront, hiff⟩ := h.normalName_of_stem hstem
  exact ⟨stem, front, hfront, hname, hiff⟩

/-- A normal name is its own normal name. -/
theorem IsPlainExtension.normalName_normalName (h : IsPlainExtension extension) (name : String) :
    normalName (normalName name extension) extension = normalName name extension := by
  obtain ⟨-, front, hfront, -, -⟩ := h.normalName_eq name
  have hplain := isPlainName_normalName name extension
  have hwith : withExtension (normalName name extension).toList extension.toList =
      (normalName name extension).toList := by
    rw [withExtension, hfront, if_pos (List.isSuffixOf_iff_suffix.mpr ⟨front, rfl⟩)]
  rw [normalName, hwith, Text.lower_eq_self hplain.isLower, List.filter_eq_self.mpr,
    String.ofList_toList]
  exact fun c hc => bne_iff_ne.mpr fun heq => hplain.noUnderscore (heq ▸ hc)

theorem IsPlainExtension.isEntryName_normalName (h : IsPlainExtension extension)
    (hname : '/' ∉ name.toList) : IsEntryName (normalName name extension) := by
  obtain ⟨-, front, hfront, -, -⟩ := h.normalName_eq name
  obtain ⟨-, -, hdot⟩ := Settings.isBareExtension_iff.mp h.bare
  have hlast : ∀ dots : String, (∀ c ∈ dots.toList, c = '.') →
      normalName name extension ≠ dots := by
    rintro dots hdots rfl
    obtain ⟨c, hc⟩ := List.exists_mem_of_ne_nil _ (ne_nil_of_isBareExtension h.bare)
    rw [hfront] at hdots
    have hcdot := hdots c (List.mem_append_right _ (List.mem_cons_of_mem _ hc))
    exact hdot (hcdot ▸ hc)
  exact ⟨hlast "" (by simp), hlast "." (by simp), hlast ".." (by simp),
    normalName_noSlash h.noSlash hname⟩

/-! ## The extension of a name -/

theorem extensionOfName?_append (front : List Char) {extension : List Char}
    (h : '.' ∉ extension) :
    extensionOfName? (front ++ '.' :: extension) = if front = [] then none else some extension := by
  have hreverse : (front ++ '.' :: extension).reverse =
      extension.reverse ++ '.' :: front.reverse := by
    rw [List.reverse_append, List.reverse_cons, List.append_assoc]
    rfl
  have hkept : ∀ c ∈ extension.reverse, (c != '.') = true := fun c hc =>
    bne_iff_ne.mpr fun heq => h (heq ▸ List.mem_reverse.mp hc)
  have hdrop : ('.' :: front.reverse).dropWhile (· != '.') = '.' :: front.reverse :=
    List.dropWhile_cons_of_neg (by decide)
  have htake : ('.' :: front.reverse).takeWhile (· != '.') = [] :=
    List.takeWhile_cons_of_neg (by decide)
  rw [extensionOfName?, hreverse, List.dropWhile_append_of_pos hkept,
    List.takeWhile_append_of_pos hkept, hdrop, htake, List.append_nil, List.reverse_reverse]
  cases hfront : front.reverse with
  | nil => rw [if_pos (List.reverse_eq_nil_iff.mp hfront)]
  | cons c rest =>
      rw [if_neg]
      rintro rfl
      cases hfront

/-- A name with the extension, and with more than underscores before it. -/
def HasStem (extension name : String) : Prop :=
  ∃ stem, name.toList = stem ++ '.' :: extension.toList ∧ ∃ c ∈ stem, c ≠ '_'

/-- Whatever a normal name has before the extension is no underscore. -/
theorem IsPlainExtension.hasStem_normalName (h : IsPlainExtension extension)
    (hname : extensionOfName? (normalName name extension).toList = some extension.toList) :
    HasStem extension (normalName name extension) := by
  obtain ⟨-, front, hfront, -, -⟩ := h.normalName_eq name
  rw [hfront, extensionOfName?_append front (Settings.isBareExtension_iff.mp h.bare).2.2] at hname
  cases front with
  | nil => cases hname
  | cons c rest =>
      refine ⟨c :: rest, hfront, c, List.mem_cons_self, ?_⟩
      rintro rfl
      refine (isPlainName_normalName name extension).noUnderscore ?_
      rw [hfront]
      exact List.mem_append_left _ List.mem_cons_self

/-- A normal name has the extension, unless it was made from underscores. -/
theorem IsPlainExtension.extensionOfName?_normalName (h : IsPlainExtension extension)
    (hstem : HasStem extension name) :
    extensionOfName? (normalName name extension).toList = some extension.toList := by
  obtain ⟨stem, hstem, c, hc, hunderscore⟩ := hstem
  obtain ⟨stem', front, hfront, hname, hiff⟩ := h.normalName_eq name
  have hfrontNe : front ≠ [] := by
    refine fun hnil => hunderscore (hiff.mp hnil c ?_)
    rcases hname with hname | rfl
    · rw [hstem] at hname
      rw [List.append_cancel_right hname]
      exact hc
    · rw [hstem]
      exact List.mem_append_left _ hc
  rw [hfront, extensionOfName?_append front (Settings.isBareExtension_iff.mp h.bare).2.2,
    if_neg hfrontNe]

end RaceSkeletons
