import RaceSkeletons.Corpus.Normalize
import RaceSkeletons.Proofs.FileSystem.Change

/-!
# Normalization keeps file systems well-formed

Normalization is the one stage that changes a corpus. It renames and
rewrites file by file, and each of these steps keeps the file system
well-formed, also where it fails; so the corpus that discovery sees is as
well-formed as the one the run was given
(`WellFormed.normalizeCorpus`). Some of the faults that were to come may be used
up then, and none comes to them (`faults_normalizeCorpus`).
-/

namespace RaceSkeletons

namespace FileSystem

variable {fs : FileSystem}

theorem WellFormed.renameFile (hwf : fs.WellFormed) (extension : String) (p : Path) :
    (renameFile extension fs p).1.WellFormed := by
  simp only [RaceSkeletons.renameFile]
  split
  · exact hwf
  · split
    · exact hwf
    · split
      · next renamed hrename => exact hwf.rename hrename
      · exact hwf

theorem WellFormed.renameEach (hwf : fs.WellFormed) (extension : String) (files : List Path) :
    (renameEach extension fs files).1.WellFormed := by
  induction files generalizing fs with
  | nil => exact hwf
  | cons p rest ih =>
      rw [RaceSkeletons.renameEach]
      exact ih (hwf.renameFile extension p)

theorem WellFormed.ensureHeader (hwf : fs.WellFormed) (p : Path) :
    (ensureHeader fs p).1.WellFormed := by
  rw [RaceSkeletons.ensureHeader]
  split
  · exact hwf
  · next content _ =>
      split
      · exact hwf
      · have hwritten := hwf.writeFile p (Utf8.encode (defaultHeader ++ content))
        split <;> next hwrite => rwa [hwrite] at hwritten

theorem WellFormed.stripFile (hwf : fs.WellFormed) (p : Path) :
    (stripFile fs p).1.WellFormed := by
  rw [RaceSkeletons.stripFile]
  split
  · exact hwf
  · next content _ =>
      split
      · exact hwf
      · have hwritten := hwf.writeFile p (Utf8.encode (stripComments content))
        split <;> next hwrite => rwa [hwrite] at hwritten

theorem WellFormed.normalizeFragment (hwf : fs.WellFormed) (host : Host) (checker : SyntaxChecker)
    (p : Path) : (normalizeFragment host checker fs p).1.WellFormed := by
  rw [RaceSkeletons.normalizeFragment]
  exact (hwf.ensureHeader p).stripFile p

theorem WellFormed.normalizeEach (hwf : fs.WellFormed) (host : Host) (checker : SyntaxChecker)
    (files : List Path) : (normalizeEach host checker fs files).1.WellFormed := by
  induction files generalizing fs with
  | nil => exact hwf
  | cons p rest ih =>
      rw [RaceSkeletons.normalizeEach]
      exact ih (hwf.normalizeFragment host checker p)

theorem WellFormed.normalizeCorpus (hwf : fs.WellFormed) (host : Host) (checker : SyntaxChecker)
    (root : Path) (extension : String) :
    (normalizeCorpus host checker fs root extension).1.WellFormed := by
  rw [RaceSkeletons.normalizeCorpus, renameFiles]
  exact (hwf.renameEach extension _).normalizeEach host checker _

/-! ## Faults -/

theorem faults_renameFile (fs : FileSystem) (extension : String) (p : Path) :
    (renameFile extension fs p).1.faults = fs.faults := by
  simp only [renameFile]
  split
  · rfl
  · split
    · rfl
    · split
      · next renamed hrename => exact faults_rename hrename
      · rfl

theorem faults_renameEach (fs : FileSystem) (extension : String) (files : List Path) :
    (renameEach extension fs files).1.faults = fs.faults := by
  induction files generalizing fs with
  | nil => rfl
  | cons p rest ih => exact (ih _).trans (faults_renameFile fs extension p)

theorem faults_renameFiles (fs : FileSystem) (root : Path) (extension : String) :
    (renameFiles fs root extension).1.faults = fs.faults :=
  faults_renameEach fs extension _

theorem faults_ensureHeader (fs : FileSystem) (p : Path) :
    (ensureHeader fs p).1.faults <:+ fs.faults := by
  rw [ensureHeader]
  split
  · exact List.suffix_refl _
  · next text _ =>
      have hfaults := faults_writeFile fs p (Utf8.encode (defaultHeader ++ text))
      split
      · exact List.suffix_refl _
      · split <;> next hwritten => rwa [hwritten] at hfaults

theorem faults_stripFile (fs : FileSystem) (p : Path) :
    (stripFile fs p).1.faults <:+ fs.faults := by
  rw [stripFile]
  split
  · exact List.suffix_refl _
  · next text _ =>
      have hfaults := faults_writeFile fs p (Utf8.encode (stripComments text))
      split
      · exact List.suffix_refl _
      · split <;> next hwritten => rwa [hwritten] at hfaults

theorem faults_normalizeFragment (host : Host) (checker : SyntaxChecker) (fs : FileSystem)
    (p : Path) : (normalizeFragment host checker fs p).1.faults <:+ fs.faults :=
  (faults_stripFile _ p).trans (faults_ensureHeader fs p)

theorem faults_normalizeEach (host : Host) (checker : SyntaxChecker) (fs : FileSystem)
    (files : List Path) : (normalizeEach host checker fs files).1.faults <:+ fs.faults := by
  induction files generalizing fs with
  | nil => exact List.suffix_refl _
  | cons p rest ih => exact (ih _).trans (faults_normalizeFragment host checker fs p)

theorem faults_normalizeCorpus (host : Host) (checker : SyntaxChecker) (fs : FileSystem)
    (root : Path) (extension : String) :
    (normalizeCorpus host checker fs root extension).1.faults <:+ fs.faults := by
  have hrest := faults_normalizeEach host checker (renameFiles fs root extension).1
    (fragmentsBelow (renameFiles fs root extension).1 root extension)
  rw [faults_renameFiles] at hrest
  exact hrest

end FileSystem

end RaceSkeletons
