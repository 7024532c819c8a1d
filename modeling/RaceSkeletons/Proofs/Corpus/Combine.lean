import RaceSkeletons.Corpus.Combine
import RaceSkeletons.Proofs.FileSystem.Growth

/-!
# Writing the combined file

The combined file can be written where nothing stands, if files can be made,
and writing it leaves everything else as it was (`writeCombined_of_missing`).
Whenever it is written, it is put at its path with the blocks of all fragments
(`writeCombined_eq_ok`, `writeCombined_of_put`). Whether it is or not, nothing else
is touched, and it never holds more than the beginning of the blocks
(`writeCombined_cases`).
-/

namespace RaceSkeletons

variable {fs opened written : FileSystem} {root output : Path} {location : Location}
  {extension : String}

/-- The combined file can be written where nothing stands. -/
theorem writeCombined_of_missing (hparents : fs.makeParents output = (fs, .ok ()))
    (hlocate : fs.locate true output = .ok ⟨location, none⟩) (hfresh : fs.fresh.refusal? = none)
    (hfault : fs.fault? = none) (root : Path) (extension : String) :
    ∃ written combined notices data,
      writeCombined fs root output extension = (written, ⟨.ok combined, notices⟩) ∧
        FileSystem.IsWrite fs written location (.file data fs.fresh) := by
  obtain ⟨opened, hcreate, hfill⟩ := FileSystem.createFile_of_missing hlocate hfresh hfault
  obtain ⟨written, hwritten, hwrite⟩ :=
    hfill ((combineSteps opened root location extension).flatMap CombineStep.block)
  simp only [writeCombined, hparents, hcreate, hwritten]
  exact ⟨written, _, _, _, rfl, hwrite⟩

/-- What the combined file contains when it lies at a location. -/
def combinedData (fs : FileSystem) (root : Path) (output : Location) (extension : String) : Bytes :=
  (combineSteps fs root output extension).flatMap CombineStep.block

theorem writeCombined_eq_ok {combined : CombinedFile}
    (h : (writeCombined fs root output extension).2.result = .ok combined) :
    ∃ opened location, FileSystem.IsPut fs opened (writeCombined fs root output extension).1 output
      location (combinedData opened root location extension) := by
  rw [writeCombined] at h ⊢
  split at h
  · cases h
  · next around hparents =>
      split at h
      · cases h
      · next opened location hcreate =>
          simp only at h ⊢
          split at h
          · cases h
          · next written hfill =>
              exact ⟨opened, location, ⟨around, hparents, hcreate⟩, hfill⟩

theorem writeCombined_of_put
    (h : FileSystem.IsPut fs opened written output location
      (combinedData opened root location extension)) :
    (writeCombined fs root output extension).1 = written ∧
      ∃ combined, (writeCombined fs root output extension).2.result = .ok combined := by
  obtain ⟨around, hparents, hcreate⟩ := h.opens
  have hfill := h.fills
  rw [combinedData] at hfill
  simp only [writeCombined, hparents, hcreate, hfill]
  exact ⟨trivial, _, rfl⟩

/-- A directory is no combined file. -/
theorem writeCombined_of_dir {around : FileSystem}
    (hparents : fs.makeParents output = (around, .ok ())) (hdir : around.isDir output = true)
    (root : Path) (extension : String) :
    writeCombined fs root output extension = (around, ⟨.error .isDirectory, []⟩) := by
  simp only [writeCombined, hparents, FileSystem.createFile_of_isDir hdir]

/-- A write that fails leaves what the file has taken. -/
theorem writeCombined_of_fault {bytes : Bytes} {mode : FileMode} {fault : WriteFault}
    (hopens : FileSystem.IsOpened fs opened output location)
    (hnode : opened.nodeAt? location = some (.file bytes mode)) (hfault : fs.fault? = some fault)
    (hdata : combinedData opened root location extension ≠ []) :
    (writeCombined fs root output extension).1 = opened.overwrite location
        ((combinedData opened root location extension).take fault.taken) mode ∧
      (writeCombined fs root output extension).2.result = .error fault.error := by
  have hfaults := FileSystem.fault?_congr hopens.faults
  obtain ⟨around, hparents, hcreate⟩ := hopens
  have hfill : opened.fill location (combinedData opened root location extension) =
      (opened.overwrite location
        ((combinedData opened root location extension).take fault.taken) mode,
        .error fault.error) := by
    simp only [FileSystem.fill, if_neg hdata, hnode, hfaults.trans hfault]
  rw [combinedData] at hfill ⊢
  simp only [writeCombined, hparents, hcreate, hfill, and_self]

/-- What writing the combined file leaves, whether it succeeds or not: the
directories around it are made, as far as they can be, and the file may have been
opened. Then it is new, or was a file before, and holds the beginning of the
blocks. -/
theorem writeCombined_cases (fs : FileSystem) (root output : Path) (extension : String) :
    let around := (fs.makeParents output).1
    let left := (writeCombined fs root output extension).1
    left = around ∨ ∃ opened location kept mode, FileSystem.IsOpened fs opened output location ∧
      kept <+: combinedData opened root location extension ∧
      FileSystem.IsWrite around left location (.file kept mode) ∧
      (around.nodeAt? location = none ∨
        ∃ bytes, around.nodeAt? location = some (.file bytes mode)) := by
  intro around left
  cases hparents : fs.makeParents output with
  | mk made result =>
      obtain rfl : around = made := congrArg Prod.fst hparents
      cases result with
      | error cause => exact .inl (by simp only [left, writeCombined, hparents])
      | ok _ =>
          cases hcreate : around.createFile output with
          | error cause => exact .inl (by simp only [left, writeCombined, hparents, hcreate])
          | ok created =>
              obtain ⟨opened, location⟩ := created
              have hleft : left =
                  (opened.fill location (combinedData opened root location extension)).1 := by
                simp only [left, writeCombined, hparents, hcreate, combinedData]
                split
                all_goals
                  next hfill => rw [hfill]
              rw [hleft]
              refine (FileSystem.isWrite_of_created hcreate _).imp_right ?_
              rintro ⟨kept, mode, hkept, hwrite, hbefore⟩
              exact ⟨opened, location, kept, mode, ⟨around, hparents, hcreate⟩, hkept, hwrite,
                hbefore⟩

end RaceSkeletons
