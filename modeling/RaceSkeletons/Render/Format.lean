import RaceSkeletons.Render.Json
import RaceSkeletons.Render.Yaml

/-!
# Output formats

Every output can be shown for people or written for programs. The text for
people has its own layout; the formats for programs write a document.
-/

namespace RaceSkeletons

/-- How an output is shown. -/
inductive OutputFormat where
  | human
  | json
  | yaml
  deriving Repr, DecidableEq, Inhabited

/-- The output in a format, given its text for people and its document. -/
def OutputFormat.render (format : OutputFormat) (text : String) (d : Document) : String :=
  match format with
  | .human => text
  | .json => Json.render d
  | .yaml => Yaml.render d

end RaceSkeletons
