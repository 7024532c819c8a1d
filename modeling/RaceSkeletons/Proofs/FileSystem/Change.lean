import Mathlib.Data.List.Nodup
import RaceSkeletons.FileSystem.Change
import RaceSkeletons.Proofs.FileSystem.Locate

/-!
# What changes do

Creating, writing and renaming keep a file system well-formed, whether they
succeed or fail half-way. And writing can be trusted: the path that was
written to is read back with the same bytes
(`FileSystem.readBytes_of_fill`). The second is not a matter of one lookup,
because a path is resolved anew when it is read: writing must not have
turned the walk through the tree elsewhere (`FileSystem.Leads.of_write`).

A write that fails has changed at most the file at the path, which now holds
a part of the data (`FileSystem.isWrite_of_created`).
-/

namespace RaceSkeletons

open RaceSkeletons.Path (IsEntryName)

namespace FileSystem

variable {fs opened written : FileSystem} {followLast : Bool} {links : Nat}
  {current location : Location} {names : List String} {place : Place} {node : Node}
  {p : Path} {data : Bytes}

/-! ## Nodes after a change -/

theorem nodeAt?_of_ne_nil (fs : FileSystem) (h : location ≠ []) :
    fs.nodeAt? location = (fs.entries.find? fun e => e.location = location).map (·.node) :=
  if_neg h

@[simp] theorem nodeAt?_nil (fs : FileSystem) : fs.nodeAt? [] = some .dir :=
  if_pos rfl

theorem ne_nil_of_none (h : fs.nodeAt? location = none) : location ≠ [] := by
  rintro rfl
  rw [nodeAt?_nil] at h
  cases h

theorem not_mem_locations (h : fs.nodeAt? location = none) :
    location ∉ fs.entries.map (·.location) := by
  have hne : location ≠ [] := ne_nil_of_none h
  rw [nodeAt?_of_ne_nil fs hne, Option.map_eq_none_iff, List.find?_eq_none] at h
  intro hmem
  obtain ⟨entry, hentry, rfl⟩ := List.mem_map.mp hmem
  exact h entry hentry (decide_eq_true rfl)

theorem nodeAt?_add (h : fs.nodeAt? location = none) (node : Node) (other : Location) :
    (fs.add location node).nodeAt? other =
      if other = location then some node else fs.nodeAt? other := by
  have hne : location ≠ [] := ne_nil_of_none h
  by_cases hother : other = []
  · rw [hother, if_neg hne.symm, nodeAt?_nil, nodeAt?_nil]
  · rw [nodeAt?_of_ne_nil _ hother, add, List.find?_append, Option.map_or,
      ← nodeAt?_of_ne_nil fs hother]
    by_cases heq : other = location
    · rw [heq, h, if_pos rfl, List.find?_cons, decide_eq_true rfl]
      rfl
    · rw [if_neg heq, List.find?_cons, decide_eq_false (Ne.symm heq)]
      exact Option.or_none

theorem nodeAt?_replaceAt {old : Node} (h : fs.nodeAt? location = some old) (hold : old ≠ .dir)
    (node : Node) (other : Location) :
    (fs.replaceAt location node).nodeAt? other =
      if other = location then some node else fs.nodeAt? other := by
  have hne : location ≠ [] := by
    rintro rfl
    rw [nodeAt?_nil] at h
    exact hold (Option.some.inj h).symm
  by_cases hother : other = []
  · rw [hother, if_neg hne.symm, nodeAt?_nil, nodeAt?_nil]
  · have hlocation : ∀ e : Entry,
        (if e.location = location then { e with node } else e).location = e.location := by
      intro e
      split <;> rfl
    rw [nodeAt?_of_ne_nil _ hother, nodeAt?_of_ne_nil fs hother, replaceAt, List.find?_map]
    simp only [Function.comp_def, hlocation]
    cases hfind : fs.entries.find? fun e => e.location = other with
    | none =>
        have heq : other ≠ location := by
          rintro rfl
          rw [nodeAt?_of_ne_nil fs hother, hfind] at h
          cases h
        rw [if_neg heq]
        rfl
    | some e =>
        have hloc : e.location = other := by simpa using List.find?_some hfind
        rw [Option.map_some, Option.map_some, Option.map_some, hloc]
        split <;> rfl

/-! ## Well-formedness -/

theorem WellFormed.add (hwf : fs.WellFormed) (h : fs.nodeAt? location = none)
    (hnames : ∀ name ∈ location, IsEntryName name) (node : Node) :
    (fs.add location node).WellFormed where
  distinct := by
    rw [FileSystem.add, List.map_append]
    refine List.Nodup.append hwf.distinct (List.nodup_singleton _) ?_
    exact List.disjoint_singleton.mpr (not_mem_locations h)
  entryNames := by
    intro entry hentry
    rcases List.mem_append.mp hentry with hmem | hlast
    · exact hwf.entryNames entry hmem
    · rw [List.mem_singleton.mp hlast]
      exact hnames
  workingDirNames := hwf.workingDirNames

theorem WellFormed.replaceAt (hwf : fs.WellFormed) (location : Location) (node : Node) :
    (fs.replaceAt location node).WellFormed where
  distinct := by
    have hlocations : (fs.replaceAt location node).entries.map (·.location) =
        fs.entries.map (·.location) := by
      rw [FileSystem.replaceAt, List.map_map]
      refine List.map_congr_left fun e _ => ?_
      rw [Function.comp_apply]
      split <;> rfl
    rw [hlocations]
    exact hwf.distinct
  entryNames := by
    intro entry hentry
    obtain ⟨old, hold, rfl⟩ := List.mem_map.mp hentry
    split <;> exact hwf.entryNames old hold
  workingDirNames := hwf.workingDirNames

theorem WellFormed.overwrite (hwf : fs.WellFormed) (location : Location) (content : Bytes)
    (mode : FileMode) : (fs.overwrite location content mode).WellFormed where
  distinct := (hwf.replaceAt location (.file content mode)).distinct
  entryNames := (hwf.replaceAt location (.file content mode)).entryNames
  workingDirNames := hwf.workingDirNames

theorem WellFormed.removeAt (hwf : fs.WellFormed) (location : Location) :
    (fs.removeAt location).WellFormed where
  distinct := hwf.distinct.sublist (List.filter_sublist.map _)
  entryNames entry hentry := hwf.entryNames entry (List.mem_of_mem_filter hentry)
  workingDirNames := hwf.workingDirNames

theorem WellFormed.relocate (hwf : fs.WellFormed) (source : Location) {target : Location}
    (hfresh : target ∉ fs.entries.map (·.location))
    (hnames : ∀ name ∈ target, IsEntryName name) : (fs.relocate source target).WellFormed where
  distinct := by
    have hlocations : (fs.relocate source target).entries.map (·.location) =
        (fs.entries.map (·.location)).map fun l => if l = source then target else l := by
      rw [FileSystem.relocate, List.map_map, List.map_map]
      refine List.map_congr_left fun e _ => ?_
      rw [Function.comp_apply, Function.comp_apply]
      split <;> rfl
    rw [hlocations]
    refine hwf.distinct.map_on fun a ha b hb heq => ?_
    -- only `source` goes to `target`, because nothing was there
    split at heq <;> split at heq
    · next hsource hsource' => exact hsource.trans hsource'.symm
    · exact absurd (heq ▸ hb) hfresh
    · exact absurd (heq ▸ ha) hfresh
    · exact heq
  entryNames := by
    intro entry hentry
    obtain ⟨old, hold, rfl⟩ := List.mem_map.mp hentry
    split
    · exact hnames
    · exact hwf.entryNames old hold
  workingDirNames := hwf.workingDirNames

/-! ## Creating and writing -/

/-- What it means that a file was opened for writing: the path leads to a
place, and the place is now an empty file unless it takes no data. -/
theorem createFile_eq_ok (h : fs.createFile p = .ok (opened, location)) :
    ∃ found, fs.locate true p = .ok ⟨location, found⟩ ∧
      (found = none ∧ fs.fresh.refusal? = none ∧
          opened = fs.add location (.file [] fs.fresh) ∨
        (∃ content mode, found = some (.file content mode) ∧ mode.refusal? = none ∧
          opened = fs.replaceAt location (.file [] mode)) ∨
        opened = fs ∧ found ≠ none ∧ found ≠ some .dir ∧
          ∀ content mode, found ≠ some (.file content mode)) := by
  rw [createFile] at h
  split at h
  · split at h <;> cases h
  · next hlocate =>
      split at h
      · cases h
      · next hfresh =>
          cases h
          exact ⟨none, hlocate, Or.inl ⟨rfl, hfresh, rfl⟩⟩
  · next node hlocate =>
      cases node with
      | dir => cases h
      | file content mode =>
          dsimp only at h
          split at h
          · cases h
          · next hmode =>
              cases h
              exact ⟨_, hlocate, Or.inr (Or.inl ⟨content, mode, rfl, hmode, rfl⟩)⟩
      | _ =>
          cases h
          exact ⟨_, hlocate, Or.inr (Or.inr ⟨rfl, nofun, nofun, nofun⟩)⟩

theorem fault?_of_nil (h : fs.faults = []) : fs.fault? = none := by
  rw [fault?, h]
  rfl

theorem overwrite_of_nil (h : fs.faults = []) (location : Location) (content : Bytes)
    (mode : FileMode) :
    fs.overwrite location content mode = fs.replaceAt location (.file content mode) := by
  rw [overwrite, h, List.tail_nil, ← h]
  rfl

theorem fill_eq_ok (hdata : data ≠ []) (h : fs.fill location data = (written, .ok ())) :
    ∃ content mode, fs.nodeAt? location = some (.file content mode) ∧
      written = fs.overwrite location data mode := by
  rw [fill, if_neg hdata] at h
  split at h
  · next content mode hnode =>
      split at h
      · cases h
        exact ⟨content, mode, hnode, rfl⟩
      · cases h
  · cases h
  · cases h

/-- Whether a write succeeds or fails, it changes at most the file, and that
then holds the data or a part of it. -/
theorem fill_cases (fs : FileSystem) (location : Location) (data : Bytes) :
    (fs.fill location data).1 = fs ∨ ∃ content mode kept,
      fs.nodeAt? location = some (.file content mode) ∧ kept <+: data ∧
        (fs.fill location data).1 = fs.overwrite location kept mode := by
  rw [fill]
  split
  · exact .inl rfl
  · split
    · next content mode hnode =>
        split
        · exact .inr ⟨content, mode, data, hnode, List.prefix_refl _, rfl⟩
        · exact .inr ⟨content, mode, _, hnode, List.take_prefix _ _, rfl⟩
    · exact .inl rfl
    · exact .inl rfl

/-- A file takes any data, unless the write fails. -/
theorem fill_of_file {bytes : Bytes} {mode : FileMode}
    (h : fs.nodeAt? location = some (.file bytes mode)) (hfault : fs.fault? = none)
    (data : Bytes) :
    fs.fill location data =
      (if data = [] then fs else fs.overwrite location data mode, .ok ()) := by
  rw [fill]
  split
  · rfl
  · simp only [h, hfault]

theorem WellFormed.createFile (hwf : fs.WellFormed)
    (h : fs.createFile p = .ok (opened, location)) : opened.WellFormed := by
  obtain ⟨found, hlocate, ⟨rfl, -, rfl⟩ | ⟨content, mode, -, -, rfl⟩ | ⟨rfl, -⟩⟩ :=
    createFile_eq_ok h
  · exact hwf.add (node_eq_of_locate hlocate).symm (hwf.entryNames_of_locate hlocate) _
  · exact hwf.replaceAt _ _
  · exact hwf

theorem WellFormed.fill (hwf : fs.WellFormed) (location : Location) (data : Bytes) :
    (fs.fill location data).1.WellFormed := by
  rcases fill_cases fs location data with hsame | ⟨_, _, _, -, -, hreplaced⟩
  · rw [hsame]
    exact hwf
  · rw [hreplaced]
    exact hwf.overwrite _ _ _

theorem WellFormed.writeFile (hwf : fs.WellFormed) (p : Path) (data : Bytes) :
    (fs.writeFile p data).1.WellFormed := by
  rw [FileSystem.writeFile]
  split
  · exact hwf
  · next opened location hcreate => exact (hwf.createFile hcreate).fill location data

theorem WellFormed.rename (hwf : fs.WellFormed) {source target : Path} {renamed : FileSystem}
    (h : fs.rename source target = .ok renamed) : renamed.WellFormed := by
  rw [FileSystem.rename] at h
  split at h
  · cases h
  · cases h
  · next origin _ _ =>
      split at h
      · cases h
      · next goal hlocate =>
          cases h
          exact hwf.relocate origin (not_mem_locations (node_eq_of_locate hlocate).symm)
            (hwf.entryNames_of_locate hlocate)
      · cases h
      · next goal _ _ hlocate =>
          split at h
          · cases h
            exact hwf
          · cases h
            refine (hwf.removeAt goal).relocate origin ?_ (hwf.entryNames_of_locate hlocate)
            intro hmem
            obtain ⟨entry, hentry, hgoal⟩ := List.mem_map.mp hmem
            exact of_decide_eq_true (List.mem_filter.mp hentry).2 hgoal

/-! ## Faults

Only a write to a file uses a fault up. -/

theorem faults_createFile (h : fs.createFile p = .ok (opened, location)) :
    opened.faults = fs.faults := by
  obtain ⟨_, -, ⟨-, -, rfl⟩ | ⟨_, _, -, -, rfl⟩ | ⟨rfl, -⟩⟩ := createFile_eq_ok h <;> rfl

theorem fault?_congr (h : opened.faults = fs.faults) : opened.fault? = fs.fault? := by
  rw [fault?, fault?, h]

theorem faults_fill (fs : FileSystem) (location : Location) (data : Bytes) :
    (fs.fill location data).1.faults <:+ fs.faults := by
  rcases fill_cases fs location data with hsame | ⟨_, _, _, -, -, hwritten⟩
  · simp only [hsame, List.suffix_refl]
  · rw [hwritten]
    exact List.tail_suffix _

theorem faults_writeFile (fs : FileSystem) (p : Path) (data : Bytes) :
    (fs.writeFile p data).1.faults <:+ fs.faults := by
  rw [writeFile]
  split
  · exact List.suffix_refl _
  · next opened location hcreate =>
      rw [← faults_createFile hcreate]
      exact faults_fill opened location data

theorem faults_rename {source target : Path} {renamed : FileSystem}
    (h : fs.rename source target = .ok renamed) : renamed.faults = fs.faults := by
  rw [rename] at h
  split at h
  · cases h
  · cases h
  · split at h
    · cases h
    · cases h
      rfl
    · cases h
    · split at h <;> cases h <;> rfl

/-! ## Reading what was written -/

/-- `fs'` is `fs` with `node` at `location`, where no directory and no link
was. -/
structure IsWrite (fs fs' : FileSystem) (location : Location) (node : Node) : Prop where
  nodeAt? : ∀ other, fs'.nodeAt? other = if other = location then some node else fs.nodeAt? other
  noDir : fs.nodeAt? location ≠ some .dir
  noLink : ∀ target, fs.nodeAt? location ≠ some (.link target)
  terms : fs'.toTerms = fs.toTerms

variable {fs' fs'' : FileSystem}

theorem isWrite_add (h : fs.nodeAt? location = none) (node : Node) :
    IsWrite fs (fs.add location node) location node where
  nodeAt? := nodeAt?_add h node
  noDir := by
    rw [h]
    exact nofun
  noLink target := by
    rw [h]
    exact nofun
  terms := rfl

theorem isWrite_replaceAt {bytes : Bytes} {mode : FileMode}
    (h : fs.nodeAt? location = some (.file bytes mode)) (node : Node) :
    IsWrite fs (fs.replaceAt location node) location node where
  nodeAt? := nodeAt?_replaceAt h nofun node
  noDir := by
    rw [h]
    exact nofun
  noLink target := by
    rw [h]
    exact nofun
  terms := rfl

theorem isWrite_overwrite {bytes content : Bytes} {mode : FileMode}
    (h : fs.nodeAt? location = some (.file bytes mode)) :
    IsWrite fs (fs.overwrite location content mode) location (.file content mode) :=
  { isWrite_replaceAt h (.file content mode) with }

theorem IsWrite.trans {node' : Node} (h : IsWrite fs fs' location node)
    (h' : IsWrite fs' fs'' location node') : IsWrite fs fs'' location node' where
  nodeAt? other := by
    rw [h'.nodeAt?, h.nodeAt?]
    split <;> rfl
  noDir := h.noDir
  noLink := h.noLink
  terms := h'.terms.trans h.terms

theorem IsWrite.workingDir (h : IsWrite fs fs' location node) :
    fs'.workingDir = fs.workingDir :=
  congrArg Terms.workingDir h.terms

theorem IsWrite.nodeAt?_self (h : IsWrite fs fs' location node) :
    fs'.nodeAt? location = some node := by
  rw [h.nodeAt?, if_pos rfl]

theorem IsWrite.nodeAt?_of_ne (h : IsWrite fs fs' location node) {other : Location}
    (hne : other ≠ location) : fs'.nodeAt? other = fs.nodeAt? other := by
  rw [h.nodeAt?, if_neg hne]

theorem IsWrite.isDirAt (h : IsWrite fs fs' location node) {other : Location}
    (hdir : fs.isDirAt other = true) : fs'.isDirAt other = true := by
  have hne : other ≠ location := by
    rintro rfl
    exact h.noDir (beq_iff_eq.mp hdir)
  rw [FileSystem.isDirAt, h.nodeAt?_of_ne hne]
  exact hdir

theorem IsWrite.looks (h : IsWrite fs fs' location node) {name : String}
    (looks : Looks fs current name) : Looks fs' current name :=
  ⟨h.isDirAt looks.isDir, looks.notCurrent, looks.notParent, looks.short⟩

/-- Names lead where they led after a file was written: on the way there are only
directories and links, and these were not touched. -/
theorem Leads.of_write (h : Leads fs followLast links current names place)
    (hwrite : IsWrite fs fs' location node) (hnode : ∀ target, node ≠ .link target) :
    Leads fs' followLast links current names ⟨place.location, fs'.nodeAt? place.location⟩ := by
  induction h with
  | here => exact .here
  | stay isDir _ ih => exact .stay (hwrite.isDirAt isDir) ih
  | up isDir _ ih => exact .up (hwrite.isDirAt isDir) ih
  | @missing _ current name looks found =>
      by_cases heq : current ++ [name] = location
      · subst heq
        exact .enter (hwrite.looks looks) hwrite.nodeAt?_self hnode .here
      · rw [← hwrite.nodeAt?_of_ne heq] at found
        rw [found]
        exact .missing (hwrite.looks looks) found
  | @unfollowed _ current name target looks found keep =>
      have hne : current ++ [name] ≠ location := fun heq => hwrite.noLink target (heq ▸ found)
      rw [← hwrite.nodeAt?_of_ne hne] at found
      rw [found]
      exact .unfollowed (hwrite.looks looks) found keep
  | @follow _ current name _ target place looks found goesOn _ ih =>
      have hne : current ++ [name] ≠ location := fun heq => hwrite.noLink target (heq ▸ found)
      rw [← hwrite.nodeAt?_of_ne hne] at found
      exact .follow (hwrite.looks looks) found goesOn ih
  | @enter _ current name _ found place looks there noLink _ ih =>
      by_cases heq : current ++ [name] = location
      · subst heq
        exact .enter (hwrite.looks looks) hwrite.nodeAt?_self hnode ih
      · rw [← hwrite.nodeAt?_of_ne heq] at there
        exact .enter (hwrite.looks looks) there noLink ih

theorem IsWrite.locate {found : Option Node} {other : Location}
    (hwrite : IsWrite fs fs' location node) (hnode : ∀ target, node ≠ .link target)
    (h : fs.locate followLast p = .ok ⟨other, found⟩) :
    fs'.locate followLast p = .ok ⟨other, fs'.nodeAt? other⟩ := by
  obtain ⟨hp, hleads⟩ := locate_eq_ok_iff.mp h
  refine locate_eq_ok_iff.mpr ⟨hp, ?_⟩
  rw [startOf, hwrite.workingDir]
  exact hleads.of_write hwrite hnode

theorem locate_of_write {found : Option Node} (h : fs.locate followLast p = .ok ⟨location, found⟩)
    (hwrite : IsWrite fs fs' location node) (hnode : ∀ target, node ≠ .link target) :
    fs'.locate followLast p = .ok ⟨location, some node⟩ := by
  rw [← hwrite.nodeAt?_self]
  exact hwrite.locate hnode h

/-- An opened file is empty, unless it is something that takes no data. It is
new, or was a file with the same mode. -/
theorem isWrite_of_createFile (h : fs.createFile p = .ok (opened, location)) :
    opened = fs ∨ ∃ mode, IsWrite fs opened location (.file [] mode) ∧
      (fs.nodeAt? location = none ∨
        ∃ bytes, fs.nodeAt? location = some (.file bytes mode)) := by
  obtain ⟨found, hlocate, ⟨rfl, -, rfl⟩ | ⟨bytes, mode, rfl, -, rfl⟩ | ⟨rfl, -⟩⟩ :=
    createFile_eq_ok h
  · have hnone := (node_eq_of_locate hlocate).symm
    exact .inr ⟨_, isWrite_add hnone _, .inl hnone⟩
  · have hfile := (node_eq_of_locate hlocate).symm
    exact .inr ⟨mode, isWrite_replaceAt hfile _, .inr ⟨bytes, hfile⟩⟩
  · exact .inl rfl

/-- A write to an opened file leaves the old file system with a file more, or
with another content of one, whether the file took all the data or not. -/
theorem isWrite_of_created (hcreate : fs.createFile p = .ok (opened, location)) (data : Bytes) :
    (opened.fill location data).1 = fs ∨ ∃ kept mode, kept <+: data ∧
      IsWrite fs (opened.fill location data).1 location (.file kept mode) ∧
      (fs.nodeAt? location = none ∨
        ∃ bytes, fs.nodeAt? location = some (.file bytes mode)) := by
  rcases fill_cases opened location data with hsame | ⟨bytes, mode, kept, hnode, hkept, hreplaced⟩
  · rw [hsame]
    exact (isWrite_of_createFile hcreate).imp_right fun ⟨mode, hwrite⟩ =>
      ⟨[], mode, List.nil_prefix, hwrite⟩
  · rw [hreplaced]
    refine .inr ⟨kept, mode, hkept, ?_⟩
    rcases isWrite_of_createFile hcreate with rfl | ⟨_, hwrite, hbefore⟩
    · exact ⟨isWrite_overwrite hnode, .inr ⟨bytes, hnode⟩⟩
    · cases hwrite.nodeAt?_self.symm.trans hnode
      exact ⟨hwrite.trans (isWrite_overwrite hnode), hbefore⟩

/-- An opened file that was filled is the old file system with a file more,
or with another content of one. -/
theorem isWrite_of_fill (hdata : data ≠ []) (hcreate : fs.createFile p = .ok (opened, location))
    (hfill : opened.fill location data = (written, .ok ())) :
    ∃ mode, IsWrite fs written location (.file data mode) := by
  obtain ⟨_, mode, hnode, rfl⟩ := fill_eq_ok hdata hfill
  rcases isWrite_of_createFile hcreate with rfl | ⟨_, hwrite, -⟩
  · exact ⟨mode, isWrite_overwrite hnode⟩
  · exact ⟨mode, hwrite.trans (isWrite_overwrite hnode)⟩

theorem readBytes_of_fill (hdata : data ≠ []) (hcreate : fs.createFile p = .ok (opened, location))
    (hfill : opened.fill location data = (written, .ok ())) : written.readBytes p = .ok data := by
  obtain ⟨found, hlocate, -⟩ := createFile_eq_ok hcreate
  obtain ⟨mode, hwrite⟩ := isWrite_of_fill hdata hcreate hfill
  have hlater := locate_of_write hlocate hwrite nofun
  rw [readBytes, target?, hlater]

/-! ## Writing where nothing stands -/

/-- A file can be created and filled where nothing stands, if files can be
made and written. -/
theorem createFile_of_missing (h : fs.locate true p = .ok ⟨location, none⟩)
    (hfresh : fs.fresh.refusal? = none) (hfault : fs.fault? = none) :
    ∃ opened, fs.createFile p = .ok (opened, location) ∧
      ∀ data, ∃ written, opened.fill location data = (written, .ok ()) ∧
        IsWrite fs written location (.file data fs.fresh) := by
  have hmade := isWrite_add (node_eq_of_locate h).symm (.file [] fs.fresh)
  refine ⟨fs.add location (.file [] fs.fresh), ?_, fun data => ?_⟩
  · simp only [createFile, h, hfresh]
  refine ⟨_, fill_of_file hmade.nodeAt?_self hfault data, ?_⟩
  split
  · next hdata =>
      rw [hdata]
      exact hmade
  · exact hmade.trans (isWrite_overwrite hmade.nodeAt?_self)

/-- A single name can be missing in the directory where its path starts. -/
theorem locate_missing (current : Location) (name : String) (hp : IsPassable p)
    (hsteps : p.steps = [name]) (hname : IsEntryName name)
    (hshort : ¬ maxNameBytes < byteLength name) (hstart : fs.startOf p = current)
    (hdir : fs.isDirAt current = true) (h : fs.nodeAt? (current ++ [name]) = none) :
    fs.locate followLast p = .ok ⟨current ++ [name], none⟩ := by
  refine locate_eq_ok_iff.mpr ⟨hp, ?_⟩
  rw [hsteps, hstart]
  exact .missing ⟨hdir, hname.notCurrent, hname.notParent, hshort⟩ h

theorem makeParents_of_name (fs : FileSystem) (h : p.parent? = some ⟨""⟩) :
    fs.makeParents p = (fs, .ok ()) := by
  rw [makeParents, h]
  rfl

end FileSystem

end RaceSkeletons
