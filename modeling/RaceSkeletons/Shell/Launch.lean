import RaceSkeletons.FileSystem.Basic

/-!
# Starting programs

Finds out what runs when a program is started by its name: a name without a
slash is looked up in the usual directories, and a script names its
interpreter in its first line.
-/

namespace RaceSkeletons.Shell

/-- A program of the host with the name and the arguments it is started
with. -/
structure Launch where
  program : String
  startedAs : String
  arguments : List String
  deriving Repr, DecidableEq

def searchDirectories : List String :=
  ["/usr/local/sbin", "/usr/local/bin", "/usr/sbin", "/usr/bin", "/sbin", "/bin"]

/-- The number of bytes in which a script names its interpreter. -/
def maxFirstLine : Nat := 256

/-- The interpreter that a script names in its first line, with its argument;
none when there is no such line. -/
def interpreter? (content : Bytes) : Option (String × List String) :=
  match (content.take maxFirstLine) with
  | 35 :: 33 :: rest =>
    let isBlank := fun (c : Char) => c == ' ' || c == '\t'
    let line := (Utf8.decodeLossy (rest.takeWhile (· ≠ 10))).toList
    let line := (line.reverse.dropWhile isBlank).reverse.dropWhile isBlank
    let name := line.takeWhile (!isBlank ·)
    let argument := (line.dropWhile (!isBlank ·)).dropWhile isBlank
    if name = [] then none
    else some (String.ofList name, if argument = [] then [] else [String.ofList argument])
  | _ => none

/-- The number of interpreters that may be scripts themselves. -/
def maxInterpreters : Nat := 5

/-- What runs when a file is started. -/
def launchFile (fs : FileSystem) :
    (depth : Nat) → (startedAs : String) → Path → List String → Except FileError Launch
  | depth, startedAs, p, args =>
    match fs.target? p with
    | .error e => .error e
    | .ok (_, .program name) => .ok ⟨name, startedAs, args⟩
    | .ok (_, .file content mode) =>
      if !mode.executable then .error .accessDenied
      else
        match interpreter? content with
        | none => .error .badFormat
        | some (interpreter, options) =>
          match depth with
          | 0 => .error .tooManyLinks
          | depth + 1 =>
            launchFile fs depth interpreter ⟨interpreter⟩ (options ++ p.text :: args)
    | .ok _ => .error .accessDenied

/-- Looks a name up in directories. A file that may not be run is passed
over, but remembered. -/
def launchIn (fs : FileSystem) (name : String) (args : List String) (denied : Bool) :
    List String → Except FileError Launch
  | [] => .error (if denied then .accessDenied else .notFound)
  | dir :: rest =>
    match launchFile fs maxInterpreters name ⟨dir ++ "/" ++ name⟩ args with
    | .ok launch => .ok launch
    | .error e =>
      if e = .accessDenied then launchIn fs name args true rest
      else if e = .notFound ∨ e = .notDirectory then launchIn fs name args denied rest
      else .error e

/-- What runs when a program is started by its name. -/
def launch (fs : FileSystem) (name : String) (args : List String) : Except FileError Launch :=
  if name = "" then .error .notFound
  else if name.toList.contains '/' then launchFile fs maxInterpreters name ⟨name⟩ args
  else if maxNameBytes < byteLength name then .error .nameTooLong
  else launchIn fs name args false searchDirectories

end RaceSkeletons.Shell
