import RaceSkeletons.Log.Record
import RaceSkeletons.Render.Json

/-!
# Log lines

A record of the log as one line: for people, with its fields behind the
message, or as a JSON object.
-/

namespace RaceSkeletons

def LogValue.plain : LogValue → String
  | .text value => value
  | .number value => toString value
  | .flag value => toString value

def LogValue.json : LogValue → String
  | .text value => Json.string value
  | .number value => toString value
  | .flag value => toString value

namespace LogRecord

/-- A record as a line for people. -/
def line (r : LogRecord) : String :=
  String.intercalate " "
    (r.level.name :: r.message :: r.fields.map fun f => f.1 ++ "=" ++ f.2.plain)

/-- A record as a JSON object on one line. -/
def jsonLine (r : LogRecord) : String :=
  let members :=
    ("message", Json.string r.message) :: r.fields.map fun f => (f.1, f.2.json)
  let fields := String.intercalate "," (members.map fun m => Json.string m.1 ++ ":" ++ m.2)
  "\x7b" ++ Json.string "level" ++ ":" ++ Json.string r.level.name ++ "," ++
    Json.string "fields" ++ ":\x7b" ++ fields ++ "\x7d\x7d"

end LogRecord

end RaceSkeletons
