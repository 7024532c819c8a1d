import RaceSkeletons.Shell.Eval
import RaceSkeletons.Tool.Process

/-!
# A host with a shell

A host on which the shell and a few utilities are installed, and the files
of such a host.
-/

namespace RaceSkeletons.Shell

/-- The depth to which scripts are run. -/
def maxDepth : Nat := 4000

/-- How a command ends, given the session it leaves behind. -/
def toolRun (limit : Duration) (s : Session) : ToolRun :=
  if s.control = .endless ∨ limit.secs * 1000000000 + limit.nanos ≤ s.elapsed then .timedOut
  else
    .ended (if s.control = .killed then none else some s.status) (s.buffers[0]?.getD [])
      (s.buffers[1]?.getD [])

/-- The host: scripts run by the rules of the shell. -/
def host : Host := fun fs command =>
  let texts := command.program.text :: command.arguments
  if texts.any fun t => t.toList.contains '\x00' then
    .notStarted (.other "nul byte found in provided data")
  else
    match launch fs command.program.text command.arguments with
    | .error e => .notStarted e
    | .ok l =>
      toolRun command.limit
        (runLaunch (run maxDepth) maxLaunches l { fs, name := l.startedAs, arguments := [] })

def programs : List String :=
  "sh" :: "env" :: Utility.names

/-- The files of the host, with an empty working directory. -/
def freshFiles : FileSystem where
  entries :=
    [⟨["usr"], .dir⟩, ⟨["usr", "bin"], .dir⟩, ⟨["bin"], .link ⟨"usr/bin"⟩⟩, ⟨["tmp"], .dir⟩,
     ⟨["dev"], .dir⟩, ⟨["dev", "full"], .fullDevice⟩, ⟨["proc"], .dir⟩,
     ⟨["proc", "self"], .dir⟩, ⟨["proc", "self", "mem"], .unreadable⟩, ⟨["tmp", "work"], .dir⟩] ++
      programs.map fun name => ⟨["usr", "bin", name], .program name⟩
  workingDir := ["tmp", "work"]

end RaceSkeletons.Shell
