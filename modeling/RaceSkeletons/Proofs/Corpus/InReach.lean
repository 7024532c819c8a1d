import RaceSkeletons.Corpus.Rename
import RaceSkeletons.Proofs.FileSystem.Walk

/-!
# Files in reach

A walk also meets files whose paths are too long to be looked up. No operation gets at
them, so the rename pass does what it does to the others (`FileSystem.filesInReach`)
and nothing else (`FileSystem.WellFormed.renameFiles_eq`).
-/

namespace RaceSkeletons

namespace FileSystem

variable {fs : FileSystem} {root p : Path} {name extension : String} {location : Location}
  {node : Node} {order : EntryOrder} {files : List Path}

/-! ## The files of a walk -/

theorem mem_files_iff {visits : List Visit} :
    p ∈ visits.filterMap Visit.file? ↔ .file p ∈ visits := by
  rw [List.mem_filterMap]
  constructor
  · rintro ⟨visit, hvisit, hfile⟩
    cases visit with
    | file q =>
        obtain rfl := Option.some.inj hfile
        exact hvisit
    | _ => cases hfile
  · exact fun hfile => ⟨_, hfile, rfl⟩

theorem mem_files_walk {order : EntryOrder} :
    p ∈ (fs.walk order root).filterMap Visit.file? ↔ .file p ∈ fs.walk order root :=
  mem_files_iff

/-- The files of a walk where the root's directory has no entry. -/
theorem files_walk_of_none (h : fs.listDir root = .ok location)
    (hchildren : fs.children location = []) :
    (fs.walk order root).filterMap Visit.file? = [] := by
  rw [walk_of_listDir h, hchildren, List.mergeSort_nil]
  rfl

/-- A walk where the root's directory has one entry, a file or a link to one. -/
theorem walk_of_one (h : fs.listDir root = .ok location)
    (hchildren : fs.children location = [(name, node)])
    (hshows : fs.ShowsFile (root.join name) node) :
    fs.walk order root = [.dir root, .file (root.join name)] := by
  obtain ⟨depth, hdepth⟩ : ∃ depth, fs.walkDepth - 1 = depth + 1 := by
    refine ⟨fs.walkDepth - 2, ?_⟩
    have hsquare : fs.entries.length + 2 ≤ fs.walkDepth := Nat.le_mul_of_pos_left _ (by omega)
    omega
  rw [walk_of_listDir h, hchildren, List.mergeSort_singleton, List.flatMap_singleton, hdepth,
    walkWithin_of_showsFile hshows]

theorem files_walk_of_one (h : fs.listDir root = .ok location)
    (hchildren : fs.children location = [(name, node)])
    (hshows : fs.ShowsFile (root.join name) node) :
    (fs.walk order root).filterMap Visit.file? = [root.join name] := by
  rw [walk_of_one h hchildren hshows]
  rfl

/-! ## Files that no path leads to -/

/-- A file whose path is too long stays where it is. -/
theorem renameFile_of_isOverlong (h : IsOverlong p) (extension : String) (fs : FileSystem) :
    (renameFile extension fs p).1 = fs ∧
      (renameFile extension fs p).2.isRenamed = false := by
  obtain ⟨e, hlocate⟩ := h.locate fs false
  have hrename : ∀ target, fs.rename p target = .error e := fun target => by
    rw [rename, hlocate]
  simp only [renameFile, hrename]
  split
  · exact ⟨rfl, rfl⟩
  · split <;> exact ⟨rfl, rfl⟩

/-- The pass may leave out files whose paths are too long. -/
theorem renameEach_filter {keep : Path → Bool}
    (hfiles : ∀ p ∈ files, keep p = true ∨ IsOverlong p) (extension : String) (fs : FileSystem) :
    (renameEach extension fs files).1 = (renameEach extension fs (files.filter keep)).1 ∧
      (renameEach extension fs files).2.filter RenameStep.isRenamed =
        (renameEach extension fs (files.filter keep)).2.filter RenameStep.isRenamed := by
  induction files generalizing fs with
  | nil => exact ⟨rfl, rfl⟩
  | cons p rest ih =>
      have hrest := ih fun q hq => hfiles q (List.mem_cons_of_mem p hq)
      by_cases hkeep : keep p = true
      · obtain ⟨hsame, hsteps⟩ := hrest (renameFile extension fs p).1
        rw [List.filter_cons_of_pos hkeep, renameEach, renameEach]
        simp only [hsame, List.filter_cons, hsteps, and_self]
      · obtain ⟨hstays, hstep⟩ := renameFile_of_isOverlong
          ((hfiles p List.mem_cons_self).resolve_left hkeep) extension fs
        rw [List.filter_cons_of_neg hkeep]
        simp only [renameEach, hstays, List.filter_cons, hstep, Bool.false_eq_true, if_false]
        exact hrest fs

/-- The files of a walk that their paths lead to. -/
def filesInReach (fs : FileSystem) (root : Path) : List Path :=
  ((fs.walk byName root).filterMap Visit.file?).filter fs.isFile

theorem mem_filesInReach :
    p ∈ fs.filesInReach root ↔ .file p ∈ fs.walk byName root ∧ fs.isFile p = true := by
  rw [filesInReach, List.mem_filter, mem_files_walk]

/-- The pass goes over the files in reach; what it does beside is no rename. -/
theorem WellFormed.renameFiles_eq (hwf : fs.WellFormed) (root : Path) (extension : String) :
    (RaceSkeletons.renameFiles fs root extension).1 =
        (RaceSkeletons.renameEach extension fs (fs.filesInReach root)).1 ∧
      (RaceSkeletons.renameFiles fs root extension).2.steps.filter RenameStep.isRenamed =
        (RaceSkeletons.renameEach extension fs (fs.filesInReach root)).2.filter
          RenameStep.isRenamed :=
  renameEach_filter (fun _ hp => hwf.isFile_or (mem_files_walk.mp hp)) extension fs

theorem WellFormed.count_renameFiles (hwf : fs.WellFormed) (root : Path) (extension : String) :
    (RaceSkeletons.renameFiles fs root extension).2.count =
      (RaceSkeletons.renameEach extension fs (fs.filesInReach root)).2.countP
        RenameStep.isRenamed := by
  rw [RenameReport.count, List.countP_eq_length_filter, List.countP_eq_length_filter,
    (hwf.renameFiles_eq root extension).2]

end FileSystem

end RaceSkeletons
