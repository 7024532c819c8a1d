import RaceSkeletons.Corpus.Accounts
import RaceSkeletons.FileSystem.Basic
import RaceSkeletons.Log.Notice

/-!
# Discovery of cases

Every directory right below the root of a corpus is examined by itself: it
is a case when it holds exactly two fragments. What was found directory by
directory is a list of findings; the cases, the excluded directories and the
notices are all read off that list.
-/

namespace RaceSkeletons

/-- Loads a fragment. One that cannot be read is empty. -/
def Fragment.load (fs : FileSystem) (p : Path) : Fragment :=
  match fs.readBytes p with
  | .ok bytes =>
    let content := Utf8.decodeLossy bytes
    { path := p, name := p.fileName, content,
      stats := FragmentStats.ofContent bytes.length content }
  | .error _ => { path := p, name := p.fileName, content := "", stats := {} }

/-- The notice of a fragment that cannot be read. -/
def Fragment.loadNotices (fs : FileSystem) (p : Path) : List Notice :=
  match fs.readBytes p with
  | .ok _ => []
  | .error e => [.fragmentUnreadable p e]

/-- What was found in a directory below the root. -/
inductive Finding where
  | unlistable (excluded : ExcludedCase) (error : FileError)
  /-- The number of fragments is not two. -/
  | malformed (excluded : ExcludedCase)
  /-- A case, with the notices of its fragments. -/
  | case_ (c : Case) (notices : List Notice)
  deriving Repr, DecidableEq

namespace Finding

/-- The case, if it is one. -/
def case? : Finding → Option Case
  | .case_ c _ => some c
  | _ => none

/-- The excluded directory, if it is none. -/
def excluded? : Finding → Option ExcludedCase
  | .unlistable excluded _ => some excluded
  | .malformed excluded => some excluded
  | .case_ .. => none

def notices : Finding → List Notice
  | .unlistable excluded error => [.caseUnlistable excluded.dir error]
  | .malformed excluded => [.malformedCase excluded]
  | .case_ c loading => loading ++ [.caseFound c.id c.first.name c.second.name]

end Finding

/-- Fails unless the root exists and is a directory. -/
def checkRoot (fs : FileSystem) (root : Path) : Except DiscoveryError Unit :=
  if !fs.pathExists root then .error (.notFound root)
  else if !fs.isDir root then .error (.notDirectory root)
  else .ok ()

/-- What the system lists of a directory: the paths of its entries, in
whatever order, or why it lists none. -/
abbrev Lister := Path → Except FileError (List Path)

/-- The order of paths by their names. -/
def nameOrder (p q : Path) : Bool :=
  (compare p.fileName q.fileName).isLE

namespace Lister

variable (list : Lister) (fs : FileSystem)

/-- The directories right below a root, in order; links to directories
count. -/
def subdirectories (root : Path) : Except FileError (List Path) :=
  (list root).map fun paths =>
    (paths.filter fs.isDir).mergeSort fun p q => (p.order q).isLE

/-- The fragments right in a directory, by name; links to files count. -/
def fragmentPaths (dir : Path) (extension : String) : Except FileError (List Path) :=
  (list dir).map fun paths =>
    (paths.filter fun p => fs.isFile p && p.hasExtension extension).mergeSort nameOrder

/-- Examines a directory. The second fragment is loaded before the first. -/
def examine (extension : String) (dir : Path) : Finding :=
  match fragmentPaths list fs dir extension with
  | .error e => .unlistable ⟨dir.fileName, dir, 0, extension⟩ e
  | .ok [first, second] =>
    .case_ ⟨dir.fileName, dir, Fragment.load fs first, Fragment.load fs second⟩
      (Fragment.loadNotices fs second ++ Fragment.loadNotices fs first)
  | .ok paths => .malformed ⟨dir.fileName, dir, paths.length, extension⟩

/-- Examines the directories below a root, in order. -/
def survey (root : Path) (extension : String) : Except DiscoveryError (List Finding) :=
  match checkRoot fs root with
  | .error e => .error e
  | .ok () =>
    match subdirectories list fs root with
    | .error e => .error (.unreadable root e)
    | .ok dirs => .ok (dirs.map (examine list fs extension))

end Lister

/-! ## Listing the entries of the file system -/

/-- The paths of the entries of a directory, in the order they are listed. -/
def FileSystem.entryPaths (fs : FileSystem) (dir : Path) : Except FileError (List Path) :=
  (fs.readDir dir).map fun entries => entries.map fun entry => dir.join entry.1

/-- The directories right below a root. -/
def subdirectories (fs : FileSystem) (root : Path) : Except FileError (List Path) :=
  Lister.subdirectories fs.entryPaths fs root

/-- The fragments right in a directory. -/
def fragmentPaths (fs : FileSystem) (dir : Path) (extension : String) :
    Except FileError (List Path) :=
  Lister.fragmentPaths fs.entryPaths fs dir extension

def examine (fs : FileSystem) (extension : String) (dir : Path) : Finding :=
  Lister.examine fs.entryPaths fs extension dir

def survey (fs : FileSystem) (root : Path) (extension : String) :
    Except DiscoveryError (List Finding) :=
  Lister.survey fs.entryPaths fs root extension

def Discovery.ofFindings (findings : List Finding) : Discovery where
  cases := findings.filterMap Finding.case?
  excluded := findings.filterMap Finding.excluded?
  totalSubdirs := findings.length

def surveyNotices (root : Path) (findings : List Finding) : List Notice :=
  if findings = [] then [.noSubdirectories root]
  else
    let d := Discovery.ofFindings findings
    findings.flatMap Finding.notices ++
      [.discovered root d.totalSubdirs d.cases.length d.excluded.length]

/-- The cases of a corpus, as the system lists it. -/
def Lister.discover (list : Lister) (fs : FileSystem) (root : Path) (extension : String) :
    Except DiscoveryError Discovery :=
  (list.survey fs root extension).map Discovery.ofFindings

/-- The cases of a corpus. -/
def discover (fs : FileSystem) (root : Path) (extension : String) :
    Except DiscoveryError Discovery :=
  (survey fs root extension).map Discovery.ofFindings

def discoverNotices (fs : FileSystem) (root : Path) (extension : String) : List Notice :=
  match survey fs root extension with
  | .error _ => []
  | .ok findings => surveyNotices root findings

def TrackedPattern.validateNotices (p : TrackedPattern) (cases : List Case) : List Notice :=
  cases.map fun c =>
    match p.issueOf? c with
    | none => .covered c.id
    | some issue => .uncovered issue

end RaceSkeletons
