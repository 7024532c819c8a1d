import RaceSkeletons.Corpus.Accounts
import RaceSkeletons.Corpus.Rename

/-!
# The combined file

All fragments below a root are written into one file, each under a line with
its path. A directory's own fragments come before those of the directories
in it. The file itself is left out if it lies below the root, and so is a
fragment that cannot be read.
-/

namespace RaceSkeletons

/-- What became of an entry of the walk. -/
inductive CombineStep where
  /-- The entry could not be visited. -/
  | unvisited (error : WalkError)
  | written (path : Path) (content : Bytes)
  /-- The fragment could not be read. -/
  | skipped (path : Path) (error : FileError)
  deriving Repr, DecidableEq

namespace CombineStep

/-- The path of a fragment that was left out. -/
def skipped? : CombineStep → Option Path
  | .skipped path _ => some path
  | _ => none

def isWritten : CombineStep → Bool
  | .written .. => true
  | _ => false

def block : CombineStep → Bytes
  | .written path content =>
    Utf8.encode ("// " ++ path.text ++ "\n") ++ content ++ Utf8.encode "\n\n"
  | _ => []

def notices : CombineStep → List Notice
  | .unvisited error => [.entryUnreadable error]
  | .written .. => []
  | .skipped path error => [.fragmentSkipped path error]

end CombineStep

/-- What becomes of an entry when the combined file is at `output`; nothing
when it is no fragment, or the combined file itself. -/
def combineStep? (fs : FileSystem) (output : Location) (extension : String) :
    Visit → Option CombineStep
  | .failed e => some (.unvisited e)
  | .dir _ => none
  | .special _ => none
  | .file p =>
    if !p.hasExtension extension then none
    else if (fs.canonical p).toOption = some output then none
    else
      match fs.readBytes p with
      | .ok content => some (.written p content)
      | .error e => some (.skipped p e)

def combineSteps (fs : FileSystem) (root : Path) (output : Location) (extension : String) :
    List CombineStep :=
  (fs.walk filesFirst root).filterMap (combineStep? fs output extension)

def CombinedFile.ofSteps (steps : List CombineStep) : CombinedFile where
  fragments := steps.countP CombineStep.isWritten
  skipped := steps.filterMap CombineStep.skipped?

/-- A combined file, or why it could not be written, and the notices on the
way. -/
structure CombineReport where
  result : Except FileError CombinedFile
  notices : List Notice

/-- Writes the combined file. It is created, or emptied, before the walk
starts. The blocks are gathered first, so a write fails behind the walk; a file
that could not be written in full stays. -/
def writeCombined (fs : FileSystem) (root output : Path) (extension : String) :
    FileSystem × CombineReport :=
  match fs.makeParents output with
  | (around, .error e) => (around, ⟨.error e, []⟩)
  | (around, .ok ()) =>
    match around.createFile output with
    | .error e => (around, ⟨.error e, []⟩)
    | .ok (opened, location) =>
      let steps := combineSteps opened root location extension
      let combined := CombinedFile.ofSteps steps
      let notices := steps.flatMap CombineStep.notices
      match opened.fill location (steps.flatMap CombineStep.block) with
      | (written, .error e) => (written, ⟨.error e, notices⟩)
      | (written, .ok ()) =>
        (written,
          ⟨.ok combined,
            notices ++ [.combined output combined.fragments combined.skipped.length]⟩)

end RaceSkeletons
