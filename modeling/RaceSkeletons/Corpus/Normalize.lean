import RaceSkeletons.Corpus.Accounts
import RaceSkeletons.Corpus.Comments
import RaceSkeletons.Corpus.Rename
import RaceSkeletons.Tool.SyntaxChecker

/-!
# Normalization of a corpus

Files are renamed first. Then every fragment gets a package header if it has
none, loses its line comments, and is handed to the syntax checker. What was
done to each fragment is a report; the counters and the notices are read off
the reports.
-/

namespace RaceSkeletons

/-- Puts a header in front of a fragment that has none. Answers whether the
file was changed. -/
def ensureHeader (fs : FileSystem) (p : Path) : FileSystem × Except FileError Bool :=
  match fs.readText p with
  | .error e => (fs, .error e)
  | .ok content =>
    if hasHeader content then (fs, .ok false)
    else
      match fs.writeFile p (Utf8.encode (defaultHeader ++ content)) with
      | (written, .ok ()) => (written, .ok true)
      | (written, .error e) => (written, .error e)

/-- Removes the line comments of a fragment. Answers whether the file was
changed. -/
def stripFile (fs : FileSystem) (p : Path) : FileSystem × Except FileError Bool :=
  match fs.readText p with
  | .error e => (fs, .error e)
  | .ok content =>
    if stripComments content = content then (fs, .ok false)
    else
      match fs.writeFile p (Utf8.encode (stripComments content)) with
      | (written, .ok ()) => (written, .ok true)
      | (written, .error e) => (written, .error e)

/-- What was done to a fragment. -/
structure FragmentReport where
  path : Path
  header : Except FileError Bool
  strip : Except FileError Bool
  check : Except ToolFailure SyntaxVerdict

namespace FragmentReport

def hasNewHeader (r : FragmentReport) : Bool :=
  match r.header with
  | .ok changed => changed
  | .error _ => false

/-- What is wrong with the fragment's syntax, if it was rejected. A check
that could not be made rejects it. -/
def rejection? (r : FragmentReport) : Option String :=
  match r.check with
  | .ok .valid => none
  | .ok .unavailable => none
  | .ok (.invalid message) => some message
  | .error failure => some failure.message

/-- Whether there was no checker to ask. -/
def isUnchecked (r : FragmentReport) : Bool :=
  match r.check with
  | .ok .unavailable => true
  | _ => false

def headerNotices (r : FragmentReport) : List Notice :=
  match r.header with
  | .ok true => [.headerAdded r.path]
  | .ok false => []
  | .error e => [.headerFailed r.path e]

def stripNotices (r : FragmentReport) : List Notice :=
  match r.strip with
  | .ok true => [.commentsRemoved r.path]
  | .ok false => []
  | .error e => [.stripFailed r.path e]

/-- The notices of the check. That there is no checker is said only the
first time. -/
def checkNotices (program : Path) (alreadySaid : Bool) (r : FragmentReport) : List Notice :=
  match r.check with
  | .ok .valid => []
  | .ok .unavailable => if alreadySaid then [] else [.checkerMissing program]
  | .ok (.invalid message) => [.syntaxRejected r.path message]
  | .error failure =>
    [.checkFailed r.path failure, .syntaxRejected r.path failure.message]

def notices (program : Path) (alreadySaid : Bool) : List FragmentReport → List Notice
  | [] => []
  | r :: rest =>
    r.headerNotices ++ r.stripNotices ++ r.checkNotices program alreadySaid ++
      notices program (alreadySaid || r.isUnchecked) rest

end FragmentReport

/-- Normalizes one fragment. -/
def normalizeFragment (host : Host) (checker : SyntaxChecker) (fs : FileSystem) (p : Path) :
    FileSystem × FragmentReport :=
  let (headed, header) := ensureHeader fs p
  let (stripped, strip) := stripFile headed p
  (stripped, { path := p, header, strip, check := checker.check host stripped p })

/-- Normalizes fragments one after the other. -/
def normalizeEach (host : Host) (checker : SyntaxChecker) (fs : FileSystem) :
    List Path → FileSystem × List FragmentReport
  | [] => (fs, [])
  | p :: rest =>
    let (changed, report) := normalizeFragment host checker fs p
    let (final, reports) := normalizeEach host checker changed rest
    (final, report :: reports)

/-- What a normalization did. -/
structure NormalizeReport where
  renames : RenameReport
  fragments : List FragmentReport

namespace NormalizeReport

def rejections (r : NormalizeReport) : List (Path × String) :=
  r.fragments.filterMap fun f => f.rejection?.map fun message => (f.path, message)

def stats (r : NormalizeReport) : NormalizeStats where
  filesRenamed := r.renames.count
  totalFiles := r.fragments.length
  packageUpdates := r.fragments.countP FragmentReport.hasNewHeader
  parsedSuccess := r.fragments.countP fun f => f.rejection?.isNone
  parseErrors := r.rejections.length
  parseErrorDetails := PathMap.ofList r.rejections
  checkerAvailable := !r.fragments.any FragmentReport.isUnchecked

def notices (checker : SyntaxChecker) (r : NormalizeReport) : List Notice :=
  r.renames.notices ++ FragmentReport.notices checker.program false r.fragments ++
    [.normalized r.stats.totalFiles r.stats.packageUpdates r.stats.parseErrors]

end NormalizeReport

/-- The fragments below a root, in the order of a walk. -/
def fragmentsBelow (fs : FileSystem) (root : Path) (extension : String) : List Path :=
  ((fs.walk byName root).filterMap Visit.file?).filter fun p => p.hasExtension extension

/-- Normalizes a corpus. -/
def normalizeCorpus (host : Host) (checker : SyntaxChecker) (fs : FileSystem) (root : Path)
    (extension : String) : FileSystem × NormalizeReport :=
  let (renamed, renames) := renameFiles fs root extension
  let (final, fragments) :=
    normalizeEach host checker renamed (fragmentsBelow renamed root extension)
  (final, { renames, fragments })

end RaceSkeletons
