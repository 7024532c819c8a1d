import RaceSkeletons.Log.Line
import RaceSkeletons.Run.Program
import RaceSkeletons.Shell.Host
import Std.Time.DateTime.Timestamp

/-!
# The program on a real machine

Reads the files that a command line speaks of, runs the program on them, and
brings the disk to where the program left them. Everything that is decided is
decided by `Program.run`; external tools run on the host with a shell.

An entry that was renamed is renamed on the disk, whatever it is, and a file
with other contents is overwritten where it stands, so both keep what is not
known of them: where a link really points, what is in a file that cannot be
read, and the rights of a file. The run expects no write to fail halfway; if one
does, the program ends with what the system said.
-/

namespace RaceSkeletons.Disk

def nameOf (location : Location) : String :=
  "/" ++ String.intercalate "/" location

/-- The location that an absolute path names, links not followed. -/
def locationOf (p : Path) : Location :=
  p.segments.filter fun name => name ≠ "" ∧ name ≠ "."

/-- What the system said, by its number. -/
def systemError : IO.Error → FileError
  | .alreadyExists _ code _ | .invalidArgument _ code _ | .permissionDenied _ code _
  | .resourceExhausted _ code _ | .inappropriateType _ code _ | .noSuchThing _ code _
  | .noFileOrDirectory _ code _ | .interrupted _ code _ | .otherError code _
  | .resourceBusy code _ | .resourceVanished code _ | .unsupportedOperation code _
  | .hardwareFault code _ | .unsatisfiedConstraints code _ | .illegalOperation code _
  | .protocolError code _ | .timeExpired code _ => .system code.toNat
  | e => .other e.toString

/-- What can be done with a file. It can be run if it names an interpreter, and
is opened to see whether it can be written. -/
def readMode (name : String) (content : Bytes) : IO FileMode := do
  let executable := (Shell.interpreter? content).isSome
  match ← (IO.FS.Handle.mk name .readWrite).toBaseIO with
  | .ok _ => pure { executable }
  | .error e => pure { executable, refusal? := some (systemError e) }

/-- What stands at a location on the disk. -/
def readNode (location : Location) : IO (Option Node) := do
  let name := nameOf location
  match ← (IO.FS.realPath ".").toBaseIO with
  | .error _ => pure none
  | .ok here =>
    match ← (here / name).symlinkMetadata.toBaseIO with
    | .error _ => pure none
    | .ok status =>
      match status.type with
      | .dir => pure (some .dir)
      | .symlink =>
        match ← (IO.FS.realPath name).toBaseIO with
        | .ok target => pure (some (.link ⟨target.toString⟩))
        | .error _ => pure (some (.link ⟨name ++ ".missing"⟩))
      | .file =>
        match ← (IO.FS.readBinFile name).toBaseIO with
        | .ok content =>
          let bytes := content.toList
          pure (some (.file bytes (← readMode name bytes)))
        | .error _ => pure (some .unreadable)
      | .other => pure none

/-- The names that a directory lists, or why it lists none. -/
def readNames (location : Location) : IO (Except FileError (List String)) := do
  let here ← IO.FS.realPath "."
  match ← (here / nameOf location).readDir.toBaseIO with
  | .ok entries => pure (.ok (entries.toList.map (·.fileName)))
  | .error e => pure (.error (systemError e))

/-- Adds what stands at a location to the files that are known, unless it is
known already. -/
def learn (fs : FileSystem) (location : Location) : IO FileSystem := do
  if (fs.nodeAt? location).isSome then pure fs
  else
    match ← readNode location with
    | none => pure fs
    | some node => pure (fs.add location node)

/-- Adds everything on the way from a location through names. -/
partial def learnPath (fs : FileSystem) (current : Location) :
    List String → IO (FileSystem × Location)
  | [] => pure (fs, current)
  | "." :: rest => learnPath fs current rest
  | ".." :: rest => learnPath fs current.dropLast rest
  | name :: rest => do
    let next := current ++ [name]
    let fs ← learn fs next
    match fs.nodeAt? next with
    | some (.link target) =>
      let (fs, location) ← learnPath fs [] (locationOf target)
      learnPath fs location rest
    | _ => learnPath fs next rest

/-- Adds everything below a location. `seen` are the directories that have
been read. -/
partial def learnTree (fs : FileSystem) (seen : List Location) (location : Location) :
    IO (FileSystem × List Location) := do
  if seen.contains location || !fs.isDirAt location then pure (fs, seen)
  else
    match ← readNames location with
    | .error e => pure ({ fs with unlisted := (location, e) :: fs.unlisted }, location :: seen)
    | .ok names =>
      names.foldlM
        (fun (fs, seen) name => do
          let (fs, target) ← learnPath fs location [name]
          learnTree fs seen target)
        (fs, location :: seen)

/-- The files that paths lead to, with those of the host. -/
def load (paths : List Path) : IO FileSystem := do
  let here ← IO.FS.realPath "."
  let workingDir := locationOf ⟨here.toString⟩
  let start := { Shell.freshFiles with workingDir }
  let (start, _) ← learnPath start [] workingDir
  let (files, _) ← paths.foldlM
    (fun (fs, seen) p => do
      let (fs, location) ← learnPath fs (if p.isAbsolute then [] else workingDir) p.steps
      learnTree fs seen location)
    (start, [])
  return files

/-- Whether a node can have come from another one: files are rewritten, nothing
else changes. -/
def isLaterNode (before after : Node) : Bool :=
  match before, after with
  | .file .., .file .. => true
  | _, _ => before = after

/-- Each entry with what it was before, if it is not new. An entry keeps its place
in the list when it is renamed; one that a rename replaced has left the list. -/
def withOrigins : List Entry → List Entry → List (Option Entry × Entry)
  | [], after => after.map fun a => (none, a)
  | _ :: _, [] => []
  | b :: before, a :: after =>
    if isLaterNode b.node a.node then (some b, a) :: withOrigins before after
    else withOrigins before (a :: after)

def moveOf? : Option Entry × Entry → Option (Location × Location)
  | (some b, a) => if b.location = a.location then none else some (b.location, a.location)
  | (none, _) => none

/-- Moves in an order in which none goes where another one has still to start. -/
def inTurn : (rounds : Nat) → List (Location × Location) → List (Location × Location)
  | 0, moves => moves
  | rounds + 1, moves =>
    let (ready, waiting) := moves.partition fun move => moves.all fun other => other.1 ≠ move.2
    ready ++ inTurn rounds waiting

/-- Writes an entry that is new or has other contents: a directory or a file. -/
def writeEntry (e : Entry) : IO Unit :=
  match e.node with
  | .dir => IO.FS.createDirAll (nameOf e.location)
  | .file content _ => IO.FS.writeBinFile (nameOf e.location) ⟨content.toArray⟩
  | _ => pure ()

/-- Brings the disk from one state of the files to another. -/
def store (before after : FileSystem) : IO Unit := do
  let entries := withOrigins before.entries after.entries
  let moves := entries.filterMap moveOf?
  for (source, target) in inTurn moves.length moves do
    IO.FS.rename (nameOf source) (nameOf target)
  for (origin?, e) in entries do
    if origin?.map (·.node) ≠ some e.node then writeEntry e

end RaceSkeletons.Disk

namespace RaceSkeletons.Program

/-- The paths that a command line speaks of. -/
def mentionedPaths (env : Environment) (arguments : List String) : List Path :=
  match CommandLine.parse arguments with
  | .error _ => []
  | .ok c =>
    match c.command with
    | .config _ => []
    | .discover o => [o.root]
    | .verify o =>
      match Settings.resolve env 1 o.flags with
      | .error _ => []
      | .ok s =>
        let outputs := [o.combinedFile, o.reportFile]
        o.root :: s.analyzer :: s.formatter :: (s.analyzerArgs.map Path.mk ++ outputs ++
          outputs.filterMap Path.parent?)

/-- The names of the variables that the program looks at. -/
def variableNames : List String :=
  ["SKELCHECK_ANALYZER", "SKELCHECK_ANALYZER_DEBUG", "SKELCHECK_ANALYZER_TIMEOUT",
   "SKELCHECK_WORKERS", "SKELCHECK_FORMATTER", "SKELCHECK_EXTENSION", "SKELCHECK_VAR_PREFIX",
   "SKELCHECK_LOG_LEVEL", "SKELCHECK_LOG_JSON", "DEBUG", "RUST_LOG"]

def readEnvironment : IO Environment := do
  let bindings ← variableNames.filterMapM fun name => do
    return (← IO.getEnv name).map fun value => (name, Utf8.encode value)
  return ⟨bindings⟩

def countProcessors : IO Nat := do
  match ← (IO.FS.readFile "/proc/cpuinfo").toBaseIO with
  | .ok text => return max 1 ((text.splitOn "\n").countP (·.startsWith "processor"))
  | .error _ => return 1

def now : IO Timestamp := do
  let t ← Std.Time.Timestamp.now
  let nanos := t.toNanosecondsSinceUnixEpoch.val
  return ⟨nanos / 1000000000, (nanos % 1000000000).toNat⟩

end RaceSkeletons.Program

open RaceSkeletons in
def main (arguments : List String) : IO UInt32 := do
  let environment ← Program.readEnvironment
  let files ← Disk.load (Program.mentionedPaths environment arguments)
  let result :=
    Program.run
      { arguments, environment, hostWorkers := ← Program.countProcessors, host := Shell.host,
        files, startedAt := ← Program.now }
  Disk.store files result.files
  for r in result.log do
    IO.eprintln (if result.logsAsJson then r.jsonLine else r.line)
  IO.eprint result.stderr
  IO.print result.stdout
  return result.exitCode.toUInt32
