import RaceSkeletons.Corpus.FileName
import RaceSkeletons.FileSystem.Change
import RaceSkeletons.Log.Notice

/-!
# Renaming files to their normal names

All files below a root are collected first and then renamed one after the
other. A file keeps its name when the normal one leads to something. What
became of each file is a step; the count and the notices are read off the
steps.
-/

namespace RaceSkeletons

/-- What became of a file. -/
inductive RenameStep where
  /-- Its name is normal already. -/
  | normal (path : Path)
  /-- The normal name is in use. -/
  | taken (source target : Path)
  | renamed (source target : Path)
  | failed (path : Path) (error : FileError)
  deriving Repr, DecidableEq

namespace RenameStep

def isRenamed : RenameStep → Bool
  | .renamed .. => true
  | _ => false

def notices : RenameStep → List Notice
  | .normal _ => []
  | .taken source target => [.nameTaken source target]
  | .renamed source target => [.renamed source target]
  | .failed path error => [.renameFailed path error]

end RenameStep

def normalPath (extension : String) (p : Path) : Path :=
  p.withFileName (normalName p.fileName extension)

/-- Renames one file. -/
def renameFile (extension : String) (fs : FileSystem) (p : Path) : FileSystem × RenameStep :=
  if normalName p.fileName extension = p.fileName then (fs, .normal p)
  else
    let target := normalPath extension p
    if fs.pathExists target then (fs, .taken p target)
    else
      match fs.rename p target with
      | .ok renamed => (renamed, .renamed p target)
      | .error e => (fs, .failed p e)

/-- Renames files one after the other. -/
def renameEach (extension : String) (fs : FileSystem) : List Path → FileSystem × List RenameStep
  | [] => (fs, [])
  | p :: rest =>
    let (renamed, step) := renameFile extension fs p
    let (final, steps) := renameEach extension renamed rest
    (final, step :: steps)

/-- The file a walk met, if it met one. -/
def Visit.file? : Visit → Option Path
  | .file p => some p
  | _ => none

/-- The error a walk met, if it met one. -/
def Visit.error? : Visit → Option WalkError
  | .failed e => some e
  | _ => none

/-- What a rename of all files did. -/
structure RenameReport where
  /-- Entries that could not be visited. -/
  unvisited : List WalkError
  steps : List RenameStep
  deriving Repr, DecidableEq

namespace RenameReport

def count (r : RenameReport) : Nat :=
  r.steps.countP RenameStep.isRenamed

def notices (r : RenameReport) : List Notice :=
  r.unvisited.map .entryUnreadable ++ r.steps.flatMap RenameStep.notices ++
    [.renamedTotal r.count]

end RenameReport

/-- Renames every file below a root to its normal name. -/
def renameFiles (fs : FileSystem) (root : Path) (extension : String) :
    FileSystem × RenameReport :=
  let visits := fs.walk byName root
  let (renamed, steps) := renameEach extension fs (visits.filterMap Visit.file?)
  (renamed, { unvisited := visits.filterMap Visit.error?, steps })

end RaceSkeletons
