import RaceSkeletons.Proofs.FileSystem.Growth

/-!
# Contents that do not matter

Where paths lead does not depend on what a file contains, and neither does what
is made around a file that is about to be written, or why it cannot be made
(`FileSystem.IsOverwrite`). So a file that is opened for writing is the same
whatever was in it (`FileSystem.IsOpened.of_replaceAt`), and it can be opened again
whatever was put into it (`FileSystem.IsOpened.again`).

A way that does not end at a file that was written was there before
(`FileSystem.IsWrite.leads_before`).
-/

namespace RaceSkeletons

namespace FileSystem

variable {fs fs' opened : FileSystem} {location : Location} {p : Path} {bytes data : Bytes}
  {mode : FileMode}

/-! ## Ways past a file -/

/-- A place with another node, if it is the given one. -/
def Place.update (location : Location) (node : Node) (place : Place) : Place :=
  if place.location = location then ⟨place.location, some node⟩ else place

theorem Place.update_of_ne {node : Node} {place : Place} (h : place.location ≠ location) :
    Place.update location node place = place :=
  if_neg h

/-- `fs'` is `fs` with other contents of the file at a location. -/
structure IsOverwrite (fs fs' : FileSystem) (location : Location) (data : Bytes)
    (mode : FileMode) : Prop where
  file : ∃ bytes, fs.nodeAt? location = some (.file bytes mode)
  result : fs' = fs.replaceAt location (.file data mode)

namespace IsOverwrite

variable (h : IsOverwrite fs fs' location data mode)

include h

theorem nodeAt? (other : Location) : fs'.nodeAt? other =
    if other = location then some (.file data mode) else fs.nodeAt? other := by
  obtain ⟨bytes, hnode⟩ := h.file
  rw [h.result, nodeAt?_replaceAt hnode nofun]

theorem ne_of_nodeAt? {other : Location} {found : Option Node}
    (hother : fs.nodeAt? other = found) (hfound : ∀ bytes mode,
      found ≠ some (.file bytes mode)) : other ≠ location := by
  rintro rfl
  obtain ⟨bytes, hnode⟩ := h.file
  exact hfound bytes mode (hother.symm.trans hnode)

/-- What is no file is as it was. -/
theorem nodeAt?_eq {other : Location} {found : Option Node}
    (hother : fs.nodeAt? other = found) (hfound : ∀ bytes mode,
      found ≠ some (.file bytes mode)) : fs'.nodeAt? other = found := by
  rw [h.nodeAt?, if_neg (h.ne_of_nodeAt? hother hfound), hother]

theorem isDirAt (other : Location) : fs'.isDirAt other = fs.isDirAt other := by
  rw [FileSystem.isDirAt, FileSystem.isDirAt, h.nodeAt?]
  split
  · next heq =>
      obtain ⟨bytes, hnode⟩ := h.file
      rw [heq, hnode]
      rfl
  · rfl

theorem looks {current : Location} {name : String} (isDir : ¬ (!fs.isDirAt current) = true)
    (notCurrent : name ≠ ".") (notParent : name ≠ "..")
    (short : ¬ maxNameBytes < byteLength name) : Looks fs' current name :=
  ⟨(h.isDirAt current).trans (by simpa using isDir), notCurrent, notParent, short⟩

/-- Names lead to the same place, or fail for the same reason. -/
theorem walkNames (followLast : Bool) (links : Nat) (current : Location) (names : List String) :
    fs'.walkNames followLast links current names =
      (fs.walkNames followLast links current names).map
        (Place.update location (.file data mode)) := by
  fun_induction FileSystem.walkNames fs followLast links current names with
  | case1 links current =>
      rw [FileSystem.walkNames, h.nodeAt?]
      simp only [Except.map, Place.update]
      split <;> rfl
  | case2 links current rest isDir ih =>
      rw [FileSystem.walkNames, h.isDirAt, if_pos isDir, ih]
  | case3 links current rest isDir =>
      rw [FileSystem.walkNames, h.isDirAt, if_neg isDir]
      rfl
  | case4 links current rest isDir ih =>
      rw [FileSystem.walkNames, h.isDirAt, if_pos isDir, ih]
  | case5 links current rest isDir =>
      rw [FileSystem.walkNames, h.isDirAt, if_neg isDir]
      rfl
  | case6 links current name rest notCurrent notParent isDir =>
      rw [walkNames.eq_4 fs' _ _ _ _ _ notCurrent notParent, h.isDirAt, if_pos isDir]
      rfl
  | case7 links current name rest notCurrent notParent isDir short =>
      rw [walkNames.eq_4 fs' _ _ _ _ _ notCurrent notParent, h.isDirAt, if_neg isDir, if_pos short]
      rfl
  | case8 links current name notCurrent notParent isDir short next node =>
      have hne := h.ne_of_nodeAt? node (by simp)
      rw [walkNames_of_looks (h.looks isDir notCurrent notParent short),
        h.nodeAt?_eq node (by simp)]
      exact congrArg Except.ok (Place.update_of_ne hne).symm
  | case9 links current name rest notCurrent notParent isDir short next node last =>
      rw [walkNames_of_looks (h.looks isDir notCurrent notParent short),
        h.nodeAt?_eq node (by simp)]
      exact if_neg last
  | case10 links current name rest notCurrent notParent isDir short next target node last =>
      have hne := h.ne_of_nodeAt? node (by simp)
      rw [walkNames_of_looks (h.looks isDir notCurrent notParent short),
        h.nodeAt?_eq node (by simp)]
      exact (if_pos last).trans (congrArg Except.ok (Place.update_of_ne hne).symm)
  | case11 current name rest notCurrent notParent isDir short next target node goesOn =>
      rw [walkNames_of_looks (h.looks isDir notCurrent notParent short),
        h.nodeAt?_eq node (by simp)]
      exact if_neg goesOn
  | case12 current name rest notCurrent notParent isDir short next target node goesOn links ih =>
      rw [walkNames_of_looks (h.looks isDir notCurrent notParent short),
        h.nodeAt?_eq node (by simp)]
      exact (if_neg goesOn).trans ih
  | case13 links current name rest notCurrent notParent isDir short next found noLink node ih =>
      rw [walkNames_of_looks (h.looks isDir notCurrent notParent short), h.nodeAt?]
      -- the file is entered as before: that it is another node shows at the end of the way
      by_cases heq : current ++ [name] = location
      · rw [if_pos heq]
        exact ih
      · rw [if_neg heq, node]
        cases found with
        | link target => exact absurd rfl (noLink target)
        | _ => exact ih

/-- A path leads nowhere in both, past the file in both, or to the file. -/
theorem locate_cases (followLast : Bool) (p : Path) :
    (∃ e, fs.locate followLast p = .error e ∧ fs'.locate followLast p = .error e) ∨
      (∃ place, place.location ≠ location ∧ fs.locate followLast p = .ok place ∧
        fs'.locate followLast p = .ok place) ∨
      ∃ bytes, fs.locate followLast p = .ok ⟨location, some (.file bytes mode)⟩ ∧
        fs'.locate followLast p = .ok ⟨location, some (.file data mode)⟩ := by
  have hlocate : fs'.locate followLast p = (fs.locate followLast p).map
      (Place.update location (.file data mode)) := by
    have hworkingDir : fs'.workingDir = fs.workingDir := by rw [h.result]; rfl
    rw [FileSystem.locate, FileSystem.locate, hworkingDir]
    split
    · rfl
    · split
      · rfl
      · split
        · rfl
        · exact h.walkNames followLast maxLinks _ _
  cases hplace : fs.locate followLast p with
  | error e =>
      rw [hplace] at hlocate
      exact .inl ⟨e, rfl, hlocate⟩
  | ok place =>
      rw [hplace] at hlocate
      by_cases heq : place.location = location
      · obtain ⟨bytes, hfile⟩ := h.file
        obtain ⟨place, found⟩ := place
        obtain rfl : place = location := heq
        obtain rfl : found = some (.file bytes mode) :=
          (node_eq_of_locate hplace).trans hfile
        exact .inr (.inr ⟨bytes, rfl, hlocate.trans (congrArg Except.ok (if_pos rfl))⟩)
      · exact .inr (.inl ⟨place, heq, rfl,
          hlocate.trans (congrArg Except.ok (Place.update_of_ne heq))⟩)

theorem isDir (p : Path) : fs'.isDir p = fs.isDir p := by
  rcases h.locate_cases true p with ⟨e, hfirst, hsecond⟩ | ⟨place, -, hfirst, hsecond⟩ |
    ⟨bytes, hfirst, hsecond⟩
  all_goals rw [FileSystem.isDir, FileSystem.isDir, target?, target?, hfirst, hsecond]

/-- A path leads to the file, or to the same as before. -/
theorem target?_cases (p : Path) :
    (fs'.target? p = fs.target? p ∧ fs.canonical p ≠ .ok location) ∨
      ∃ bytes, fs.target? p = .ok (location, .file bytes mode) ∧
        fs'.target? p = .ok (location, .file data mode) := by
  rcases h.locate_cases true p with ⟨e, hfirst, hsecond⟩ | ⟨⟨place, found⟩, hne, hfirst, hsecond⟩ |
    ⟨bytes, hfirst, hsecond⟩
  · refine .inl ⟨by rw [target?, target?, hfirst, hsecond], ?_⟩
    rw [canonical, target?, hfirst]
    intro heq
    cases heq
  · refine .inl ⟨by rw [target?, target?, hfirst, hsecond], ?_⟩
    rw [canonical, target?, hfirst]
    intro heq
    cases found with
    | none => cases heq
    | some node => exact hne (Except.ok.inj heq)
  · exact .inr ⟨bytes, by rw [target?, hfirst], by rw [target?, hsecond]⟩

theorem canonical (p : Path) : fs'.canonical p = fs.canonical p := by
  rcases h.target?_cases p with ⟨hsame, -⟩ | ⟨bytes, hfirst, hsecond⟩
  · rw [FileSystem.canonical, FileSystem.canonical, hsame]
  · rw [FileSystem.canonical, FileSystem.canonical, hfirst, hsecond]
    rfl

/-- Whatever else is read is read as before. -/
theorem readBytes (hother : fs.canonical p ≠ .ok location) :
    fs'.readBytes p = fs.readBytes p := by
  rcases h.target?_cases p with ⟨hsame, -⟩ | ⟨bytes, hfirst, -⟩
  · rw [FileSystem.readBytes, FileSystem.readBytes, hsame]
  · refine absurd ?_ hother
    rw [FileSystem.canonical, hfirst]
    rfl

theorem grows : Grows fs fs' := by
  obtain ⟨bytes, hfile⟩ := h.file
  rw [h.result]
  exact .of_write (isWrite_replaceAt hfile _) (.inr ⟨bytes, hfile⟩)

/-- Nothing was added. -/
theorem grows_symm : Grows fs' fs where
  keeps other found hfound := by
    rw [h.nodeAt?] at hfound
    split at hfound
    · next heq =>
        obtain ⟨bytes, hfile⟩ := h.file
        cases hfound
        exact ⟨_, heq ▸ hfile, .inr ⟨data, bytes, mode, rfl, rfl⟩⟩
    · exact ⟨found, hfound, .inl rfl⟩
  terms := by
    rw [h.result]
    rfl

/-! ## Directories that are made beside it -/

theorem add {other : Location} (hother : fs.nodeAt? other = none) (node : Node) :
    IsOverwrite (fs.add other node) (fs'.add other node) location data mode where
  file := by
    obtain ⟨bytes, hfile⟩ := h.file
    refine ⟨bytes, ?_⟩
    rw [nodeAt?_add hother, if_neg (h.ne_of_nodeAt? hother (by simp)).symm, hfile]
  result := by
    have hne := h.ne_of_nodeAt? hother (by simp)
    rw [h.result, FileSystem.add, FileSystem.add, FileSystem.replaceAt, FileSystem.replaceAt]
    simp [hne]

/-- The same directory is made, or none is for the same reason. -/
theorem makeDir (p : Path) : (∃ e, fs.makeDir p = .error e ∧ fs'.makeDir p = .error e) ∨
    ∃ made made', fs.makeDir p = .ok made ∧ fs'.makeDir p = .ok made' ∧
      IsOverwrite made made' location data mode := by
  rw [FileSystem.makeDir, FileSystem.makeDir]
  rcases h.locate_cases false (withoutFinalSlashes p) with
    ⟨e, hfirst, hsecond⟩ | ⟨⟨place, found⟩, -, hfirst, hsecond⟩ | ⟨bytes, hfirst, hsecond⟩
  · exact .inl ⟨e, by rw [hfirst], by rw [hsecond]⟩
  · cases found with
    | some found => exact .inl ⟨.alreadyExists, by rw [hfirst], by rw [hsecond]⟩
    | none =>
        refine .inr ⟨fs.add place .dir, fs'.add place .dir, by rw [hfirst], by rw [hsecond], ?_⟩
        exact h.add (node_eq_of_locate hfirst).symm .dir
  · exact .inl ⟨.alreadyExists, by rw [hfirst], by rw [hsecond]⟩

/-- The directories that are missing around a directory are made in both, as far as
they can be. -/
theorem makeDirsWithin (depth : Nat) (p : Path) :
    (fs'.makeDirsWithin depth p).2 = (fs.makeDirsWithin depth p).2 ∧
      IsOverwrite (fs.makeDirsWithin depth p).1 (fs'.makeDirsWithin depth p).1 location data
        mode := by
  induction depth generalizing p with
  | zero =>
      rw [makeDirsWithin.eq_def fs, makeDirsWithin.eq_def fs']
      split
      · exact ⟨rfl, h⟩
      · rcases h.makeDir p with ⟨e, hfirst, hsecond⟩ | ⟨made, made', hfirst, hsecond, hmade⟩
        · simp only [hfirst, hsecond, h.isDir]
          split <;> exact ⟨rfl, h⟩
        · simp only [hfirst, hsecond]
          exact ⟨trivial, hmade⟩
  | succ depth ih =>
      rw [makeDirsWithin.eq_def fs, makeDirsWithin.eq_def fs']
      split
      · exact ⟨rfl, h⟩
      · rcases h.makeDir p with ⟨e, hfirst, hsecond⟩ | ⟨made, made', hfirst, hsecond, hmade⟩
        · simp only [hfirst, hsecond, h.isDir]
          split
          · exact ⟨rfl, h⟩
          · cases p.parent? with
            | none => exact ⟨rfl, h⟩
            | some parent =>
                obtain ⟨hresult, haround⟩ := ih parent
                simp only
                generalize fs.makeDirsWithin depth parent = first at hresult haround
                generalize fs'.makeDirsWithin depth parent = second at hresult haround
                obtain ⟨around, result⟩ := first
                obtain ⟨around', result'⟩ := second
                obtain rfl : result' = result := hresult
                cases result' with
                | error e => exact ⟨rfl, haround⟩
                | ok =>
                    simp only
                    rcases haround.makeDir p with
                      ⟨e, hfirst, hsecond⟩ | ⟨made, made', hfirst, hsecond, hmade⟩
                    · simp only [hfirst, hsecond, haround.isDir]
                      exact ⟨trivial, haround⟩
                    · simp only [hfirst, hsecond]
                      exact ⟨trivial, hmade⟩
        · simp only [hfirst, hsecond]
          exact ⟨trivial, hmade⟩

theorem makeParents (p : Path) : (fs'.makeParents p).2 = (fs.makeParents p).2 ∧
    IsOverwrite (fs.makeParents p).1 (fs'.makeParents p).1 location data mode := by
  rw [FileSystem.makeParents, FileSystem.makeParents]
  cases p.parent? with
  | none => exact ⟨rfl, h⟩
  | some parent => exact h.makeDirsWithin _ parent

end IsOverwrite

/-! ## Ways that end elsewhere -/

namespace IsWrite

variable {other : Location} (h : IsWrite fs fs' location (.file data mode))

include h

theorem ne_of_isDirAt (hdir : fs'.isDirAt other = true) : other ≠ location := by
  rintro rfl
  cases h.nodeAt?_self.symm.trans (beq_iff_eq.mp hdir)

theorem isDirAt_before (hdir : fs'.isDirAt other = true) : fs.isDirAt other = true := by
  rw [FileSystem.isDirAt, ← h.nodeAt?_of_ne (h.ne_of_isDirAt hdir)]
  exact hdir

theorem looks_before {name : String} (looks : Looks fs' other name) : Looks fs other name :=
  ⟨h.isDirAt_before looks.isDir, looks.notCurrent, looks.notParent, looks.short⟩

theorem link_before {target : Path} (hlink : fs'.nodeAt? other = some (.link target)) :
    fs.nodeAt? other = some (.link target) := by
  rw [← hlink, h.nodeAt?_of_ne]
  rintro rfl
  cases h.nodeAt?_self.symm.trans hlink

/-- A way that does not end at a file that was written was there before: it does not go
through the file. -/
theorem leads_before {followLast : Bool} {links : Nat} {current : Location}
    {names : List String} {place : Place} (hleads : Leads fs' followLast links current names place)
    (hne : place.location ≠ location) : Leads fs followLast links current names place := by
  induction hleads with
  | here =>
      rw [h.nodeAt?_of_ne hne]
      exact .here
  | stay isDir _ ih => exact .stay (h.isDirAt_before isDir) (ih hne)
  | up isDir _ ih => exact .up (h.isDirAt_before isDir) (ih hne)
  | missing looks node =>
      exact .missing (h.looks_before looks) ((h.nodeAt?_of_ne hne).symm.trans node)
  | unfollowed looks node keep =>
      exact .unfollowed (h.looks_before looks) (h.link_before node) keep
  | follow looks node goesOn _ ih =>
      exact .follow (h.looks_before looks) (h.link_before node) goesOn (ih hne)
  | @enter links current name rest found place looks node noLink more ih =>
      have hentry : current ++ [name] ≠ location := by
        cases rest with
        | nil =>
            cases more
            exact hne
        | cons next rest => exact h.ne_of_isDirAt more.isDirAt_of_cons
      exact .enter (h.looks_before looks) ((h.nodeAt?_of_ne hentry).symm.trans node) noLink (ih hne)

theorem locate_before {followLast : Bool} {place : Place}
    (hlocate : fs'.locate followLast p = .ok place) (hne : place.location ≠ location) :
    fs.locate followLast p = .ok place := by
  obtain ⟨hp, hleads⟩ := locate_eq_ok_iff.mp hlocate
  have hbefore := h.leads_before hleads hne
  rw [startOf, h.workingDir] at hbefore
  exact locate_eq_ok_iff.mpr ⟨hp, hbefore⟩

theorem target?_before {node : Node} (htarget : fs'.target? p = .ok (other, node))
    (hne : other ≠ location) : fs.target? p = .ok (other, node) :=
  target?_eq_ok_iff.mpr (locate_eq_ok_iff.mp
    (h.locate_before (locate_eq_ok_iff.mpr (target?_eq_ok_iff.mp htarget)) hne))

end IsWrite

/-! ## Files that are opened -/

theorem replaceAt_replaceAt (fs : FileSystem) (location : Location) (old node : Node) :
    (fs.replaceAt location old).replaceAt location node = fs.replaceAt location node := by
  simp only [replaceAt, List.map_map]
  congr 1
  refine List.map_congr_left fun entry _ => ?_
  by_cases heq : entry.location = location <;> simp [heq]

/-- To put a node where it stands changes nothing. -/
theorem WellFormed.replaceAt_self (hwf : fs.WellFormed) {node : Node} (hne : location ≠ [])
    (h : fs.nodeAt? location = some node) : fs.replaceAt location node = fs := by
  have hsame : fs.entries.map (fun entry =>
      if entry.location = location then { entry with node } else entry) = fs.entries.map id := by
    refine List.map_congr_left fun entry hentry => ?_
    split
    · next heq =>
        have hnode := hwf.nodeAt?_of_mem hentry (heq ▸ hne)
        rw [heq, h] at hnode
        rw [Option.some.inj hnode]
        rfl
    · rfl
  rw [FileSystem.replaceAt, hsame, List.map_id]

theorem ne_nil_of_file (h : fs.nodeAt? location = some (.file bytes mode)) :
    location ≠ [] := by
  rintro rfl
  rw [nodeAt?_nil] at h
  cases h

/-- A file is opened unless the system refuses. -/
theorem createFile_of_file (h : fs.locate true p = .ok ⟨location, some (.file bytes mode)⟩) :
    fs.createFile p = match mode.refusal? with
      | some e => .error e
      | none => .ok (fs.replaceAt location (.file [] mode), location) := by
  cases hrefusal : mode.refusal? <;> simp only [createFile, h, hrefusal]

/-- A file is opened as if something else had been in it. -/
theorem IsOpened.of_replaceAt (h : IsOpened fs opened p location)
    (hfile : fs.nodeAt? location = some (.file bytes mode)) (old : Bytes) :
    IsOpened (fs.replaceAt location (.file old mode)) opened p location := by
  obtain ⟨around, hparents, hcreate⟩ := h
  have hover : IsOverwrite fs (fs.replaceAt location (.file old mode)) location old
      mode := ⟨⟨bytes, hfile⟩, rfl⟩
  obtain ⟨hresult, haround⟩ := hover.makeParents p
  rw [hparents] at hresult haround
  refine ⟨_, Prod.ext rfl hresult, ?_⟩
  obtain ⟨found, hlocate, hopened⟩ := createFile_eq_ok hcreate
  rcases haround.locate_cases true p with ⟨e, herror, -⟩ | ⟨place, hne, hplace, -⟩ |
    ⟨bytes', hfirst, hsecond⟩
  · rw [hlocate] at herror
    cases herror
  · rw [hlocate] at hplace
    exact absurd (congrArg Place.location (Except.ok.inj hplace)) (Ne.symm hne)
  · rw [createFile_of_file hfirst] at hcreate
    rw [createFile_of_file hsecond, haround.result, replaceAt_replaceAt, hcreate]

/-- A file is opened empty, in the directories that were made around it. -/
theorem IsOpened.isWrite (h : IsOpened fs opened p location)
    (hfile : opened.nodeAt? location = some (.file bytes mode)) :
    ∃ around, fs.makeParents p = (around, .ok ()) ∧
      IsWrite around opened location (.file [] mode) := by
  obtain ⟨around, hparents, hcreate⟩ := h
  refine ⟨around, hparents, ?_⟩
  obtain ⟨found, hlocate, ⟨rfl, -, rfl⟩ | ⟨old, mode', rfl, -, rfl⟩ | ⟨rfl, -, -, hother⟩⟩ :=
    createFile_eq_ok hcreate
  · have hwrite := isWrite_add (node_eq_of_locate hlocate).symm (.file [] around.fresh)
    cases hwrite.nodeAt?_self.symm.trans hfile
    exact hwrite
  · have hwrite := isWrite_replaceAt (node_eq_of_locate hlocate).symm (.file [] mode')
    cases hwrite.nodeAt?_self.symm.trans hfile
    exact hwrite
  · exact absurd ((node_eq_of_locate hlocate).trans hfile) (hother bytes mode)

theorem IsOpened.eq_nil (h : IsOpened fs opened p location)
    (hfile : opened.nodeAt? location = some (.file bytes mode)) : bytes = [] := by
  obtain ⟨around, -, hwrite⟩ := h.isWrite hfile
  cases hwrite.nodeAt?_self.symm.trans hfile
  rfl

/-- A file that was opened and filled is opened again. -/
theorem IsOpened.again (h : IsOpened fs opened p location) (hwf : opened.WellFormed)
    (hfile : opened.nodeAt? location = some (.file bytes mode)) (data : Bytes) :
    IsOpened (opened.replaceAt location (.file data mode)) opened p location := by
  obtain rfl := h.eq_nil hfile
  obtain ⟨around, hparents, hcreate⟩ := h
  have hwrite := isWrite_replaceAt hfile (.file data mode)
  have hgrows : Grows opened (opened.replaceAt location (.file data mode)) :=
    .of_write hwrite (.inr ⟨[], hfile⟩)
  obtain ⟨node, -, hopens, htarget⟩ := target?_of_createFile hcreate
  obtain rfl : node = .file [] mode :=
    Option.some.inj ((target?_eq_ok_iff.mp htarget).2.node_eq.trans hfile)
  obtain ⟨node', -, htarget'⟩ := hgrows.target? htarget
  obtain ⟨hp, hleads⟩ := target?_eq_ok_iff.mp htarget'
  obtain rfl : node' = .file data mode :=
    Option.some.inj (hleads.node_eq.trans hwrite.nodeAt?_self)
  refine ⟨_, makeParents_again hparents ((grows_createFile hcreate).trans hgrows), ?_⟩
  rw [createFile_of_file (locate_eq_ok_iff.mpr ⟨hp, hleads⟩), hopens [] mode rfl,
    replaceAt_replaceAt, hwf.replaceAt_self (ne_nil_of_file hfile) hfile]

end FileSystem

end RaceSkeletons
