import RaceSkeletons.FileSystem.Basic

/-!
# Changes to a file system

Creating, writing, renaming and removing entries. An operation on one entry
that fails changes nothing, and answers only the error. The others answer
what they left behind beside the error: a write that fails has emptied the
file and left the bytes it took in it, and directories that were made around
another stay when that one cannot be made.

A rename keeps the entry in its place in the list and gives it a new
location, so what a rename does to a directory can be read off the list.
-/

namespace RaceSkeletons

namespace FileSystem

variable (fs : FileSystem)

def add (location : Location) (node : Node) : FileSystem :=
  { fs with entries := fs.entries ++ [⟨location, node⟩] }

/-- Puts another node at a location where one stands. -/
def replaceAt (location : Location) (node : Node) : FileSystem :=
  { fs with
    entries := fs.entries.map fun e =>
      if e.location = location then { e with node } else e }

/-- Takes away the entry at a location. -/
def removeAt (location : Location) : FileSystem :=
  { fs with entries := fs.entries.filter fun e => e.location ≠ location }

/-- Gives the entry at `source` the location `target`. -/
def relocate (source target : Location) : FileSystem :=
  { fs with
    entries := fs.entries.map fun e =>
      if e.location = source then { e with location := target } else e }

def parentIsDir (p : Path) : Bool :=
  match p.parent? with
  | none => false
  | some parent => parent.text == "" || fs.isDir parent

/-- Opens a file for writing: it is created, or emptied when it exists,
unless the system refuses. The answer also says where it is. -/
def createFile (p : Path) : Except FileError (FileSystem × Location) :=
  match fs.locate true p with
  | .error e =>
    if e = .notFound ∧ p.segments.getLast? = some "" ∧ fs.parentIsDir p then
      .error .isDirectory
    else .error e
  | .ok ⟨location, none⟩ =>
    match fs.fresh.refusal? with
    | some e => .error e
    | none => .ok (fs.add location (.file [] fs.fresh), location)
  | .ok ⟨location, some node⟩ =>
    match node with
    | .dir => .error .isDirectory
    | .file _ mode =>
      match mode.refusal? with
      | some e => .error e
      | none => .ok (fs.replaceAt location (.file [] mode), location)
    | _ => .ok (fs, location)

/-- How the next write to a file fails, if it does. -/
def fault? : Option WriteFault :=
  fs.faults.head?.join

/-- Puts the content that a write leaves into the file at a location. -/
def overwrite (location : Location) (content : Bytes) (mode : FileMode) : FileSystem :=
  { fs.replaceAt location (.file content mode) with faults := fs.faults.tail }

/-- Writes data to the opened, empty file at a location. A write that fails
leaves the bytes that the file has taken. -/
def fill (location : Location) (data : Bytes) : FileSystem × Except FileError Unit :=
  if data = [] then (fs, .ok ())
  else
    match fs.nodeAt? location with
    | some (.file _ mode) =>
      match fs.fault? with
      | none => (fs.overwrite location data mode, .ok ())
      | some fault =>
        (fs.overwrite location (data.take fault.taken) mode, .error fault.error)
    | some .fullDevice => (fs, .error .noSpace)
    | _ => (fs, .error .inputOutput)

/-- Replaces the content of a file, creating it if need be. A file that
cannot be opened stays as it is. -/
def writeFile (p : Path) (data : Bytes) : FileSystem × Except FileError Unit :=
  match fs.createFile p with
  | .error e => (fs, .error e)
  | .ok (opened, location) => opened.fill location data

/-- Renames an entry that is no directory. What stands at the new name is
replaced, unless it is a directory. Links are renamed, not followed. -/
def rename (source target : Path) : Except FileError FileSystem :=
  match fs.locate false source with
  | .error e => .error e
  | .ok ⟨_, none⟩ => .error .notFound
  | .ok ⟨origin, some _⟩ =>
    match fs.locate false target with
    | .error e => .error e
    | .ok ⟨goal, none⟩ => .ok (fs.relocate origin goal)
    | .ok ⟨_, some .dir⟩ => .error .isDirectory
    | .ok ⟨goal, some _⟩ =>
      if origin = goal then .ok fs else .ok ((fs.removeAt goal).relocate origin goal)

/-- A path without the slashes at its end; the root keeps its own. -/
def withoutFinalSlashes (p : Path) : Path :=
  match (p.text.toList.reverse.dropWhile (· == '/')).reverse with
  | [] => p
  | text => ⟨String.ofList text⟩

/-- Makes one directory. A slash may stand behind its name. -/
def makeDir (p : Path) : Except FileError FileSystem :=
  match fs.locate false (withoutFinalSlashes p) with
  | .error e => .error e
  | .ok ⟨_, some _⟩ => .error .alreadyExists
  | .ok ⟨location, none⟩ => .ok (fs.add location .dir)

/-- Makes a directory and the directories around it that are missing. The
directories around `p` are tried from the inside out, at most `depth` of
them. -/
def makeDirsWithin (depth : Nat) (p : Path) : FileSystem × Except FileError Unit :=
  if p.text = "" then (fs, .ok ())
  else
    match fs.makeDir p with
    | .ok made => (made, .ok ())
    | .error e =>
      if e ≠ .notFound then
        (fs, if fs.isDir p then .ok () else .error e)
      else
        match depth, p.parent? with
        | depth + 1, some parent =>
          match makeDirsWithin depth parent with
          | (around, .error e) => (around, .error e)
          | (around, .ok ()) =>
            match around.makeDir p with
            | .ok made => (made, .ok ())
            | .error e => (around, if around.isDir p then .ok () else .error e)
        | _, _ => (fs, .error (.other "failed to create whole tree"))

/-- Makes a directory and the directories around it that are missing. -/
def makeDirs (p : Path) : FileSystem × Except FileError Unit :=
  fs.makeDirsWithin p.text.length p

/-- Makes the directories around a file that is about to be written. -/
def makeParents (p : Path) : FileSystem × Except FileError Unit :=
  match p.parent? with
  | none => (fs, .ok ())
  | some parent => fs.makeDirs parent

/-- Removes the entry a path names, with everything below it. -/
def remove (p : Path) : Except FileError FileSystem :=
  match fs.locate false p with
  | .error e => .error e
  | .ok ⟨_, none⟩ => .error .notFound
  | .ok ⟨location, some _⟩ =>
    .ok { fs with entries := fs.entries.filter fun e => !location.isPrefixOf e.location }

/-- Marks the file a path leads to as a program. -/
def makeExecutable (p : Path) : FileSystem :=
  match fs.target? p with
  | .ok (location, .file content mode) =>
    fs.replaceAt location (.file content { mode with executable := true })
  | _ => fs

/-- Writes a file with the directories around it. -/
def putFile (p : Path) (content : Bytes) (executable : Bool) : Except FileError FileSystem :=
  match fs.makeParents p with
  | (_, .error e) => .error e
  | (around, .ok ()) =>
    match around.writeFile p content with
    | (_, .error e) => .error e
    | (written, .ok ()) => .ok (if executable then written.makeExecutable p else written)

/-- Makes a link with the directories around it. -/
def putLink (p target : Path) : Except FileError FileSystem :=
  match fs.makeParents p with
  | (_, .error e) => .error e
  | (around, .ok ()) =>
    match around.locate false p with
    | .error e => .error e
    | .ok ⟨_, some _⟩ => .error .alreadyExists
    | .ok ⟨location, none⟩ => .ok (around.add location (.link target))

end FileSystem

end RaceSkeletons
