import RaceSkeletons.Shell.Expansion
import RaceSkeletons.Shell.Grammar
import RaceSkeletons.Shell.Launch
import RaceSkeletons.Shell.Utility

/-!
# Running scripts

One step of a command is a function of the way its parts are run (`step`);
running to a depth iterates it (`run`). A script that goes deeper than any
limit does not end.
-/

namespace RaceSkeletons.Shell

/-- How a command changes a session. -/
abbrev Runner := Script → Session → Session

def runText (run : Runner) (text : String) (s : Session) : Session :=
  match parseScript text with
  | .ok script => run script s
  | .error why => { s.complain 2 ("Syntax error: " ++ why) with control := .exited }

def captureWith (run : Runner) : Capture := fun text s =>
  let (s, bytes) := s.collect (runText run text)
  (s, Utf8.decodeLossy bytes)

/-! ## Programs -/

/-- The options of a shell, and what follows them. -/
def shellOptions : List String → String × List String
  | [] => ("", [])
  | "--" :: rest => ("", rest)
  | arg :: rest =>
    match arg.toList with
    | '-' :: c :: letters =>
      let (more, operands) := shellOptions rest
      (String.ofList (c :: letters) ++ more, operands)
    | _ => ("", arg :: rest)

def runShell (run : Runner) (l : Launch) (s : Session) : Session :=
  let (options, operands) := shellOptions l.arguments
  let s := { s with stopsOnFailure := options.toList.contains 'e' }
  let named := { s with name := l.startedAs }
  if options.toList.contains 'c' then
    match operands with
    | [] => { named with line := 0 }.complain 2 "-c requires an argument"
    | text :: rest =>
      runText run text
        { s with name := rest.head?.getD l.startedAs, arguments := rest.drop 1 }
  else
    match operands with
    | [] => runText run (Utf8.decodeLossy s.stdin) { named with arguments := [], stdin := [] }
    | file :: rest =>
      match s.source file with
      | .error e =>
        let why := if e = .notFound then "No such file" else e.reason
        { named with line := 0 }.complain 2 ("cannot open " ++ file ++ ": " ++ why)
      | .ok content =>
        runText run (Utf8.decodeLossy content) { s with name := file, arguments := rest }

/-- Runs a program on its own; `depth` limits programs that start others. -/
def runLaunch (run : Runner) : (depth : Nat) → Launch → Session → Session
  | 0, _, s => { s with control := .endless }
  | depth + 1, l, s =>
    let own :=
      { s with
        bindings := [], functions := [], line := 1, control := .next, status := 0
        stopsOnFailure := false, isTested := false }
    match l.program with
    | "sh" => s.absorb (runShell run l own)
    | "env" =>
      match l.arguments.dropWhile fun a => a.startsWith "-" || a.toList.contains '=' with
      | [] => s.finish 0
      | name :: args =>
        match launch s.fs name args with
        | .ok l => runLaunch run depth l s
        | .error e =>
          s.fail (if e = .notFound then 127 else 126) ("env: '" ++ name ++ "': " ++ e.reason)
    | program =>
      match Utility.standalone? program with
      | some utility => s.absorb (utility l.arguments { own with name := l.startedAs })
      | none => s.fail 127 (program ++ ": not found")

/-- The number of programs that may start each other. -/
def maxLaunches : Nat := 64

/-- Runs a program that a script names. A file without an interpreter is a
script of the shell. `context` stands in front of the name in messages. -/
def runProgram (run : Runner) (context name : String) (args : List String) (s : Session) :
    Session :=
  match launch s.fs name args with
  | .ok l => runLaunch run maxLaunches l s
  | .error e =>
    if e = .badFormat then runLaunch run maxLaunches ⟨"sh", "sh", name :: args⟩ s
    else if e = .accessDenied then s.complain 126 (context ++ name ++ ": Permission denied")
    else s.complain 127 (context ++ name ++ ": not found")

/-! ## Commands of the shell itself -/

def exitCommand (args : List String) (s : Session) : Session :=
  match args with
  | [] => { s with control := .exited }
  | text :: _ =>
    match text.toNat? with
    | some n => { s.finish (n % 256) with control := .exited }
    | none => { s.complain 2 ("exit: Illegal number: " ++ text) with control := .exited }

def returnCommand (args : List String) (s : Session) : Session :=
  match args.head?.bind String.toNat? with
  | some n => { s.finish (n % 256) with control := .returning }
  | none => { s with control := .returning }

/-- Signals that do not end a program; zero only asks whether there is such a
program. -/
def harmlessSignals : List String :=
  ["0", "CHLD", "SIGCHLD", "17", "CONT", "SIGCONT", "18", "URG", "SIGURG", "23", "WINCH",
   "SIGWINCH", "28"]

/-- Whether an argument names a signal that ends a program. -/
def endsProgram (signal : String) : Bool :=
  !harmlessSignals.contains signal

/-- Sends a signal to programs. Only the running one can be reached. -/
def killCommand (args : List String) (s : Session) : Session :=
  let (signal, targets) :=
    match args with
    | "-s" :: signal :: rest => (signal, rest)
    | first :: rest =>
      match first.toList with
      | '-' :: c :: letters => (String.ofList (c :: letters), rest)
      | _ => ("TERM", first :: rest)
    | [] => ("TERM", [])
  let targets := targets.filter (· ≠ "--")
  if targets = [] then
    s.complain 2 "kill: Usage: kill [-s sigspec | -signum | -sigspec] [pid | job]..."
  else if targets.contains (toString Session.processNumber) ∨ targets.contains "0" then
    if endsProgram signal then { s with control := .killed } else s.finish 0
  else s.complain 1 "kill: No such process"

/-- Reads a line of the input into variables; the last one takes the rest. -/
def readVariables (args : List String) (s : Session) : Session :=
  let names := args.filter fun a => !a.startsWith "-"
  let line := s.stdin.takeWhile (· ≠ 10)
  let rest := s.stdin.dropWhile (· ≠ 10)
  let fill := fun (acc : Session × List Char) (name : String) (last : Bool) =>
    let text := acc.2.dropWhile isFieldBlank
    let value :=
      if last then (text.reverse.dropWhile isFieldBlank).reverse
      else text.takeWhile (!isFieldBlank ·)
    (acc.1.assign name (String.ofList value), text.drop value.length)
  let start := ({ s with stdin := rest.drop 1 }, (Utf8.decodeLossy line).toList)
  let filled :=
    names.zipIdx.foldl (fun acc (name, i) => fill acc name (i + 1 == names.length)) start
  filled.1.answer (rest ≠ [])

/-- Assigns the variables that arguments name. -/
def assignArguments (args : List String) (s : Session) : Session :=
  args.foldl
    (fun s a =>
      match a.splitOn "=" with
      | name :: value :: more => s.assign name (String.intercalate "=" (value :: more))
      | _ => s)
    (s.finish 0)

/-- Takes over the options of a shell: one letter has an effect. -/
def setOptions (args : List String) (s : Session) : Session :=
  args.foldl
    (fun s a =>
      if !a.toList.contains 'e' then s else { s with stopsOnFailure := a.startsWith "-" })
    s

/-- Sets options, and replaces the arguments if there are new ones. -/
def setCommand (args : List String) (s : Session) : Session :=
  let isOption := fun (a : String) => a ≠ "--" && (a.startsWith "-" || a.startsWith "+")
  let s := setOptions (args.takeWhile isOption) s
  match args.dropWhile isOption with
  | "--" :: rest => { s.finish 0 with arguments := rest }
  | [] => s.finish 0
  | rest => { s.finish 0 with arguments := rest }

def shiftCommand (args : List String) (s : Session) : Session :=
  let n := (args.head?.bind String.toNat?).getD 1
  if s.arguments.length < n then
    { s.complain 2 "shift: can't shift that many" with control := .exited }
  else { s.finish 0 with arguments := s.arguments.drop n }

def changeDirectory (args : List String) (s : Session) : Session :=
  let target := args.head?.getD "/"
  match s.fs.target? ⟨target⟩ with
  | .ok (location, .dir) => { s.finish 0 with fs := { s.fs with workingDir := location } }
  | _ => s.complain 2 ("cd: can't cd to " ++ target)

def printDirectory (s : Session) : Session :=
  (s.print Session.out ("/" ++ String.intercalate "/" s.fs.workingDir ++ "\n")).finish 0

def ownCommands : List String :=
  [":", "exit", "return", "break", "continue", "shift", "set", "export", "readonly", "local",
   "unset", "read", "kill", "cd", "pwd", "eval", "exec", "command", ".", "trap", "umask", "wait",
   "true", "false", "echo", "printf", "test", "["]

/-- Prints what runs under a name; fails when nothing does. -/
def locateCommand (name : String) (s : Session) : Session :=
  if ownCommands.contains name ∨ (s.functions.lookup name).isSome then
    (s.print Session.out (name ++ "\n")).finish 0
  else
    match launch s.fs name [] with
    | .error _ => s.finish 127
    | .ok _ =>
      let text := if name.toList.contains '/' then name else "/usr/bin/" ++ name
      (s.print Session.out (text ++ "\n")).finish 0

/-- The number of loops that an argument names. -/
def loopCount (args : List String) : Nat :=
  (args.head?.bind String.toNat?).getD 1

def callFunction (run : Runner) (body : Script) (args : List String) (s : Session) : Session :=
  let inner := run body { s with arguments := args }
  { inner with
    arguments := s.arguments
    control := if inner.control = .returning then .next else inner.control }

def execute (run : Runner) (name : String) (args : List String) (s : Session) : Session :=
  match s.functions.lookup name with
  | some body => callFunction run body args s
  | none =>
    match name with
    | ":" => s.finish 0
    | "exit" => exitCommand args s
    | "return" => returnCommand args s
    | "break" => { s.finish 0 with control := .leaving (loopCount args) }
    | "continue" => { s.finish 0 with control := .repeating (loopCount args) }
    | "shift" => shiftCommand args s
    | "set" => setCommand args s
    | "export" => assignArguments args s
    | "readonly" => assignArguments args s
    | "local" => assignArguments args s
    | "unset" => { s.finish 0 with bindings := s.bindings.filter fun v => !args.contains v.1 }
    | "read" => readVariables args s
    | "kill" => killCommand args s
    | "cd" => changeDirectory args s
    | "pwd" => printDirectory s
    | "eval" => runText run (String.intercalate " " args) s
    | "exec" =>
      match args with
      | [] => s.finish 0
      | name :: args =>
        let after := runProgram run "exec: " name args s
        { after with control := if after.control = .next then .exited else after.control }
    | "command" =>
      match args with
      | ["-v", name] => locateCommand name s
      | args =>
        match args.dropWhile (·.startsWith "-") with
        | [] => s.finish 0
        | name :: args =>
          match Utility.named? name with
          | some utility => utility args s
          | none => runProgram run "" name args s
    | "." =>
      match args with
      | [] => s.finish 0
      | file :: _ =>
        match s.source file with
        | .ok content =>
          let inner := runText run (Utf8.decodeLossy content) s
          { inner with control := if inner.control = .returning then .next else inner.control }
        | .error _ => { s.complain 2 (".: cannot open " ++ file) with control := .exited }
    | "trap" => s.finish 0
    | "umask" => s.finish 0
    | "wait" => s.finish 0
    | name =>
      match Utility.named? name with
      | some utility => utility args s
      | none => runProgram run "" name args s

/-! ## Redirections -/

/-- Why a file that is written to cannot be opened. -/
def writeProblem? (fs : FileSystem) (path : String) : Option String :=
  match fs.locate true ⟨path⟩ with
  | .error e => some (if e = .notFound then "Directory nonexistent" else e.reason)
  | .ok ⟨_, none⟩ => fs.fresh.refusal?.map FileError.reason
  | .ok ⟨_, some .dir⟩ => some "Is a directory"
  | .ok ⟨_, some (.file _ mode)⟩ => mode.refusal?.map FileError.reason
  | .ok _ => none

/-- Applies a redirection; none when it fails, which has been reported. -/
def applyRedirection (capture : Capture) (r : Redirection) (s : Session) : Session × Bool :=
  match r with
  | .copy descriptor source =>
    match s.sinks.lookup source with
    | some sink => (s.redirect descriptor (some sink), true)
    | none => (s.complain 2 (toString source ++ ": Bad file descriptor"), false)
  | .close descriptor => (s.redirect descriptor none, true)
  | .write descriptor target =>
    let (path, s) := expandText capture target s
    match path with
    | "/dev/null" => (s.redirect descriptor (some .nowhere), true)
    | "/dev/full" => (s.redirect descriptor (some .nowhere), true)
    | "/dev/stdout" => (s.redirect descriptor (s.sinks.lookup Session.out), true)
    | "/dev/stderr" => (s.redirect descriptor (s.sinks.lookup Session.diagnostics), true)
    | path =>
      match writeProblem? s.fs path with
      | none => (s.redirect descriptor (some .nowhere), true)
      | some why => (s.complain 2 ("cannot create " ++ path ++ ": " ++ why), false)
  | .read source =>
    let (path, s) := expandText capture source s
    match s.source path with
    | .ok content => ({ s with stdin := content }, true)
    | .error e =>
      let why := if e = .notFound then "No such file" else e.reason
      (s.complain 2 ("cannot open " ++ path ++ ": " ++ why), false)
  | .text content =>
    let (text, s) := expandText capture content s
    ({ s with stdin := Utf8.encode text }, true)

/-- Applies redirections up to the first that fails. -/
def applyRedirections (capture : Capture) : List Redirection → Session → Session × Bool
  | [], s => (s, true)
  | r :: rest, s =>
    match applyRedirection capture r s with
    | (s, true) => applyRedirections capture rest s
    | (s, false) => (s, false)

def Redirection.isInput : Redirection → Bool
  | .read _ | .text _ => true
  | .close descriptor => descriptor == 0
  | .copy .. | .write .. => false

/-- Runs an action with redirections, and undoes them. -/
def redirected (capture : Capture) (redirections : List Redirection)
    (action : Session → Session) (s : Session) : Session :=
  match applyRedirections capture redirections s with
  | (inner, true) =>
    let after := action inner
    { after with
      sinks := s.sinks
      stdin := if redirections.any Redirection.isInput then s.stdin else after.stdin }
  | (inner, false) => { inner with sinks := s.sinks, stdin := s.stdin }

/-! ## Compound commands -/

/-- Whether a word holds a script whose output it stands for. -/
def hasOutput (w : Word) : Bool :=
  w.any fun
    | .output .. => true
    | _ => false

def runSimple (run : Runner) (assignments : List (String × Word)) (words : List Word)
    (redirections : List Redirection) (s : Session) : Session :=
  let capture := captureWith run
  let assignAll := fun (s : Session) =>
    assignments.foldl
      (fun (s : Session) (name, w) =>
        let (value, s) := expandText capture w s
        s.assign name value)
      s
  let (fields, s) := expandAll capture words s
  if s.control ≠ .next then s
  else
    match fields with
    | [] =>
      let keepsStatus := words.any hasOutput || assignments.any (hasOutput ·.2)
      redirected capture redirections
        (fun s =>
          let after := assignAll s
          if keepsStatus then after else after.finish 0)
        s
    | name :: args =>
      if name = "exec" ∧ args = [] then (applyRedirections capture redirections s).1.finish 0
      else
        let after :=
          redirected capture redirections (fun s => execute run name args (assignAll s)) s
        if assignments = [] then after else { after with bindings := s.bindings }

/-- What an end of the body means for the loop around it: whether the loop
goes on, and how the session does. -/
def afterBody (s : Session) : Bool × Session :=
  match s.control with
  | .next => (true, s)
  | .leaving (n + 2) => (false, { s with control := .leaving (n + 1) })
  | .leaving _ => (false, { s with control := .next })
  | .repeating (n + 2) => (false, { s with control := .repeating (n + 1) })
  | .repeating _ => (true, { s with control := .next })
  | _ => (false, s)

/-- Runs the body of a loop once for each value. -/
def runEach (run : Runner) (name : String) (body : Script) : List String → Session → Session
  | [], s => s
  | value :: rest, s =>
    match afterBody (run body (s.assign name value)) with
    | (true, s) => runEach run name body rest s
    | (false, s) => s

/-- The first branch with a pattern that a text fits. -/
def chooseBranch (capture : Capture) (text : List Char) :
    List (List Word × Script) → Session → Option Script × Session
  | [], s => (none, s)
  | (patterns, body) :: rest, s =>
    let (found, s) :=
      patterns.foldl
        (fun (found, s) w =>
          if found then (true, s)
          else
            let (pieces, s) := expandWord capture false operandDepth w s
            (fits (patternOf pieces) text, s))
        (false, s)
    if found then (some body, s) else chooseBranch capture text rest s

/-- Runs a command whose parts are run by `run`. A session that has ended
stays as it is. -/
def step (run : Runner) : Runner := fun script s =>
  let capture := captureWith run
  if s.control ≠ .next then s
  else
    match script with
    | .empty => s.finish 0
    | .simple line assignments words redirections =>
      (runSimple run assignments words redirections { s with line }).checked
    | .sequence first second => run second (run first s)
    | .both first second =>
      let s := s.tested (run first)
      if s.status = 0 then run second s else s
    | .either first second =>
      let s := s.tested (run first)
      if s.status = 0 then s else run second s
    | .negated body =>
      let s := s.tested (run body)
      if s.control = .next then s.answer (s.status ≠ 0) else s
    | .pipe first second =>
      let (after, bytes) := s.collect (run first)
      if after.control ≠ .next then after
      else
        let inner := run second { after with stdin := bytes, elapsed := s.elapsed }
        (after.absorb { inner with elapsed := max after.elapsed inner.elapsed }).checked
    | .group body redirections => redirected capture redirections (run body) s
    | .subshell body redirections =>
      (redirected capture redirections (fun s => s.absorb (run body s)) s).checked
    | .branch condition yes no redirections =>
      redirected capture redirections
        (fun s =>
          let s := s.tested (run condition)
          if s.status = 0 then run yes s else run no s)
        s
    | .choice word branches redirections =>
      redirected capture redirections
        (fun s =>
          let (text, s) := expandText capture word s
          match chooseBranch capture text.toList branches s with
          | (some body, s) => run body s
          | (none, s) => s.finish 0)
        s
    | .loop wanted condition body redirections =>
      redirected capture redirections
        (fun s =>
          let s := s.tested (run condition)
          if s.control ≠ .next then s
          else if decide (s.status = 0) = wanted then
            match afterBody (run body s) with
            | (true, s) => run (.loop wanted condition body []) s
            | (false, s) => s
          else s.finish 0)
        s
    | .each name words body redirections =>
      redirected capture redirections
        (fun s =>
          let (values, s) :=
            match words with
            | none => (s.arguments, s)
            | some words => expandAll capture words s
          runEach run name body values (s.finish 0))
        s
    | .function name body => { s.finish 0 with functions := (name, body) :: s.functions }

/-- Runs commands to a depth. -/
def run : (depth : Nat) → Runner
  | 0 => fun _ s => { s with control := .endless }
  | depth + 1 => step (run depth)

end RaceSkeletons.Shell
