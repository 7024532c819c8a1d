import RaceSkeletons.FileSystem.Error
import RaceSkeletons.Path.Basic
import RaceSkeletons.Text.Utf8

/-!
# File systems

A file system is a list of entries: each says what stands at one location,
and a location is the list of names that lead to it from the root. The
order of the list is the order in which a directory is listed, so that
"whatever order the system lists a directory in" is a permutation of the
entries.

A file that can be read need not be one that can be written: its mode says
whether the system lets it be opened for writing. And a write to an opened
file may fail halfway: the file system knows which of the writes to come do.
Nor need a directory be one that can be listed, though paths lead through it.

Paths are resolved the way the kernel does it (`locate`): component by
component, through symbolic links, with a limit on their number.
-/

namespace RaceSkeletons

/-- A write that fails when the file has taken some of the bytes. -/
structure WriteFault where
  taken : Nat
  error : FileError
  deriving Repr, DecidableEq

/-- What can be done with a file. -/
structure FileMode where
  executable : Bool := false
  /-- Why the file cannot be opened for writing, if it cannot. -/
  refusal? : Option FileError := none
  deriving Repr, DecidableEq

/-- The mode of a file that can be read and written, and is no program. -/
def FileMode.plain : FileMode := {}

/-- What stands at a location. -/
inductive Node where
  | file (content : Bytes) (mode : FileMode)
  | dir
  | link (target : Path)
  /-- A file that exists but cannot be read. -/
  | unreadable
  /-- A device that can be opened but takes no data. -/
  | fullDevice
  /-- A program of the host, known by its name. -/
  | program (name : String)
  deriving Repr, DecidableEq

def Node.isRegular : Node → Bool
  | .file .. | .unreadable | .program _ => true
  | .dir | .link _ | .fullDevice => false

/-- The names that lead from the root directory to an entry. -/
abbrev Location := List String

/-- One entry of a file system. -/
structure Entry where
  location : Location
  node : Node
  deriving Repr, DecidableEq

/-- What no operation on a file system changes. -/
structure FileSystem.Terms where
  workingDir : Location
  /-- The mode of a file that is made. -/
  fresh : FileMode := .plain
  /-- Where the directories are that cannot be listed, and why. -/
  unlisted : List (Location × FileError) := []
  deriving Repr, DecidableEq

/-- A file system with a working directory. The root directory needs no
entry. -/
structure FileSystem extends FileSystem.Terms where
  entries : List Entry
  /-- How the next writes to files end, one after the other: well, where
  there is no fault. All writes after them end well. -/
  faults : List (Option WriteFault) := []
  deriving Repr, DecidableEq

/-- A resolved path: where it leads, and what stands there. The node is none
when only the directory around the location exists. -/
structure Place where
  location : Location
  node : Option Node
  deriving Repr, DecidableEq

/-- The length of a text in bytes. -/
def byteLength (s : String) : Nat :=
  s.utf8ByteSize

/-- The longest name of a directory entry, in bytes. -/
def maxNameBytes : Nat := 255

/-- The longest path, in bytes. -/
def maxPathBytes : Nat := 4095

/-- The number of links that may be followed in one path. -/
def maxLinks : Nat := 40

/-- The names to walk through. A slash at the end asks for a directory, like
a final dot. -/
def Path.steps (p : Path) : List String :=
  let names := p.segments.filter (· ≠ "")
  if names ≠ [] ∧ p.segments.getLast? = some "" then names ++ ["."] else names

namespace FileSystem

variable (fs : FileSystem)

/-- What stands at a location. -/
def nodeAt? (location : Location) : Option Node :=
  if location = [] then some .dir
  else (fs.entries.find? fun e => e.location = location).map (·.node)

/-- Whether a directory stands at a location. -/
def isDirAt (location : Location) : Bool :=
  fs.nodeAt? location == some .dir

/-- Walks from a directory through the names that remain. `links` is the
number of links that may still be followed; a link at the very end is
followed only when `followLast` is set. -/
def walkNames (followLast : Bool) (links : Nat) (current : Location) :
    List String → Except FileError Place
  | [] => .ok ⟨current, fs.nodeAt? current⟩
  | "." :: rest =>
    if fs.isDirAt current then walkNames followLast links current rest
    else .error .notDirectory
  | ".." :: rest =>
    if fs.isDirAt current then walkNames followLast links current.dropLast rest
    else .error .notDirectory
  | name :: rest =>
    if !fs.isDirAt current then .error .notDirectory
    else if maxNameBytes < byteLength name then .error .nameTooLong
    else
      let next := current ++ [name]
      match fs.nodeAt? next with
      | none => if rest = [] then .ok ⟨next, none⟩ else .error .notFound
      | some (.link target) =>
        if rest = [] ∧ followLast = false then .ok ⟨next, some (.link target)⟩
        else
          match links with
          | 0 => .error .tooManyLinks
          | links + 1 =>
            walkNames followLast links (if target.isAbsolute then [] else current)
              (target.steps ++ rest)
      | some _ => walkNames followLast links next rest
termination_by names => (links, names.length)

/-- Where a path leads. A link at its end is followed only when `followLast`
is set. -/
def locate (followLast : Bool) (p : Path) : Except FileError Place :=
  if p.text.toList.contains '\x00' then .error .nulInPath
  else if p.text = "" then .error .notFound
  else if maxPathBytes < byteLength p.text then .error .nameTooLong
  else fs.walkNames followLast maxLinks (if p.isAbsolute then [] else fs.workingDir) p.steps

/-- What a path leads to through all links. -/
def target? (p : Path) : Except FileError (Location × Node) :=
  match fs.locate true p with
  | .error e => .error e
  | .ok ⟨_, none⟩ => .error .notFound
  | .ok ⟨location, some node⟩ => .ok (location, node)

/-- Whether a path leads to anything. -/
def pathExists (p : Path) : Bool :=
  match fs.target? p with
  | .ok _ => true
  | .error _ => false

def isDir (p : Path) : Bool :=
  match fs.target? p with
  | .ok (_, .dir) => true
  | _ => false

def isFile (p : Path) : Bool :=
  match fs.target? p with
  | .ok (_, node) => node.isRegular
  | .error _ => false

/-- The one location that all paths to the same entry lead to. -/
def canonical (p : Path) : Except FileError Location :=
  (fs.target? p).map (·.1)

/-- The name an entry has in the directory at `location`, if it lies right
in it. -/
def childName? (location : Location) (e : Entry) : Option String :=
  match e.location.getLast? with
  | none => none
  | some name => if e.location = location ++ [name] then some name else none

/-- The entries of the directory at a location, in the order of the file
system: names and nodes, links not followed. -/
def children (location : Location) : List (String × Node) :=
  fs.entries.filterMap fun e => (childName? location e).map fun name => (name, e.node)

/-- The directory a path leads to, opened to be listed. -/
def listDir (p : Path) : Except FileError Location :=
  match fs.target? p with
  | .error e => .error e
  | .ok (location, .dir) =>
    match fs.unlisted.lookup location with
    | some e => .error e
    | none => .ok location
  | .ok _ => .error .notDirectory

def readDir (p : Path) : Except FileError (List (String × Node)) :=
  (fs.listDir p).map fs.children

def readBytes (p : Path) : Except FileError Bytes :=
  match fs.target? p with
  | .error e => .error e
  | .ok (_, .file content _) => .ok content
  | .ok (_, .dir) => .error .isDirectory
  | .ok _ => .error .inputOutput

/-- The text of a file that holds valid UTF-8. -/
def readText (p : Path) : Except FileError String :=
  match fs.readBytes p with
  | .error e => .error e
  | .ok bytes =>
    match Utf8.decode? bytes with
    | none => .error .invalidText
    | some text => .ok text

end FileSystem

end RaceSkeletons
