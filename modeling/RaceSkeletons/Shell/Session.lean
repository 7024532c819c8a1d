import RaceSkeletons.FileSystem.Basic
import RaceSkeletons.Shell.Syntax

/-!
# Sessions

The state of a running program: its files, its parameters and variables,
where its output goes and what it has written so far, the time it has spent
sleeping, and what it does next.
-/

namespace RaceSkeletons.Shell

/-- Where what is written to a descriptor goes. -/
inductive Sink where
  /-- Text is collected in the buffer of this number. -/
  | buffer (index : Nat)
  | nowhere
  deriving Repr, DecidableEq

/-- What a program does after a command. -/
inductive Control where
  | next
  | exited
  /-- A function or a sourced script ends. -/
  | returning
  /-- So many loops end. -/
  | leaving (levels : Nat)
  /-- So many loops end but for the last one, which goes on. -/
  | repeating (levels : Nat)
  /-- A signal ended the program. -/
  | killed
  /-- The program never ends. -/
  | endless
  deriving Repr, DecidableEq

/-- The state of a running program. -/
structure Session where
  fs : FileSystem
  /-- The name under which the program was started. -/
  name : String
  arguments : List String
  bindings : List (String × String) := []
  functions : List (String × Script) := []
  stdin : Bytes := []
  /-- The sinks of the open descriptors. -/
  sinks : List (Nat × Sink) := [(1, .buffer 0), (2, .buffer 1)]
  buffers : List Bytes := [[], []]
  status : Nat := 0
  /-- Nanoseconds spent. -/
  elapsed : Nat := 0
  control : Control := .next
  line : Nat := 1
  /-- Whether a command that fails ends the program. -/
  stopsOnFailure : Bool := false
  /-- Whether the current command is a condition, which may fail. -/
  isTested : Bool := false

namespace Session

def out : Nat := 1

def diagnostics : Nat := 2

/-- Writes bytes to a descriptor. What a closed one takes is lost. -/
def write (s : Session) (descriptor : Nat) (bytes : Bytes) : Session :=
  match s.sinks.lookup descriptor with
  | some (.buffer i) => { s with buffers := s.buffers.modify i (· ++ bytes) }
  | _ => s

def print (s : Session) (descriptor : Nat) (text : String) : Session :=
  s.write descriptor (Utf8.encode text)

def finish (s : Session) (status : Nat) : Session :=
  { s with status }

/-- Ends a command with status zero if a condition holds and one if not. -/
def answer (s : Session) (holds : Bool) : Session :=
  s.finish (if holds then 0 else 1)

/-- Ends a command that cannot do its work. -/
def fail (s : Session) (status : Nat) (message : String) : Session :=
  (s.print diagnostics (message ++ "\n")).finish status

def complain (s : Session) (status : Nat) (message : String) : Session :=
  s.fail status (s.name ++ ": " ++ toString s.line ++ ": " ++ message)

/-- The bytes that a name in a command stands for: a dash is the input. -/
def source (s : Session) (name : String) : Except FileError Bytes :=
  if name = "-" ∨ name = "/dev/stdin" then .ok s.stdin
  else if name = "/dev/null" then .ok []
  else s.fs.readBytes ⟨name⟩

/-- Ends the program if a command has failed that must not. -/
def checked (s : Session) : Session :=
  if s.stopsOnFailure ∧ !s.isTested ∧ s.status ≠ 0 ∧ s.control = .next then
    { s with control := .exited }
  else s

/-- Runs an action whose failure is an answer. -/
def tested (s : Session) (action : Session → Session) : Session :=
  { action { s with isTested := true } with isTested := s.isTested }

/-- Points a descriptor to a sink, or closes it. -/
def redirect (s : Session) (descriptor : Nat) (sink : Option Sink) : Session :=
  let others := s.sinks.filter (·.1 ≠ descriptor)
  match sink with
  | none => { s with sinks := others }
  | some sink => { s with sinks := (descriptor, sink) :: others }

def assign (s : Session) (name : String) (value : String) : Session :=
  { s with bindings := (name, value) :: s.bindings.filter (·.1 ≠ name) }

/-- The number of the running program, as far as scripts see it. -/
def processNumber : Nat := 4242

/-- The value of a parameter; none when it is not set. -/
def parameter? (s : Session) (name : String) : Option String :=
  match name with
  | "#" => some (toString s.arguments.length)
  | "?" => some (toString s.status)
  | "$" => some (toString processNumber)
  | "*" => some (String.intercalate " " s.arguments)
  | "@" => some (String.intercalate " " s.arguments)
  | "-" => some ""
  | "0" => some s.name
  | name =>
    match name.toNat? with
    | some n => s.arguments[n - 1]?
    | none => s.bindings.lookup name

/-- What a session that ran on its own leaves behind: its output, the time
it took, its status, and an end that concerns the whole program. -/
def absorb (outer inner : Session) : Session :=
  { outer with
    buffers := inner.buffers
    elapsed := inner.elapsed
    status := inner.status
    control :=
      match inner.control with
      | .killed => .killed
      | .endless => .endless
      | _ => outer.control }

/-- Runs an action with its results collected: the session after it, and
what was collected. The action runs on its own. -/
def collect (s : Session) (action : Session → Session) : Session × Bytes :=
  let index := s.buffers.length
  let inner :=
    action ({ s with buffers := s.buffers ++ [[]] }.redirect out (some (.buffer index)))
  let collected := inner.buffers[index]?.getD []
  (s.absorb { inner with buffers := inner.buffers.take index }, collected)

end Session

end RaceSkeletons.Shell
