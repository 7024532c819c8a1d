import RaceSkeletons.Log.Level

/-!
# Log filters

A filter says for each topic from which level on its records are shown. It
is written as a list of directives: a topic with a level, a topic alone, or
a level for everything else. The directive with the longest topic that a
record's topic starts with decides; of two with the same topic, the later.
-/

namespace RaceSkeletons

/-- A level for all topics that start with a text. No level shows nothing. -/
structure LogDirective where
  topic : String
  level : Option LogLevel
  deriving Repr, DecidableEq

/-- The directives of a filter. -/
structure LogFilter where
  directives : List LogDirective
  deriving Repr, DecidableEq

namespace LogFilter

/-- The level that a word or a digit names in a directive; `off` is no
level. -/
def levelWord? (word : String) : Option (Option LogLevel) :=
  match Text.lowered word with
  | "off" => some none
  | "0" => some none
  | "error" => some (some .error)
  | "1" => some (some .error)
  | "warn" => some (some .warn)
  | "2" => some (some .warn)
  | "info" => some (some .info)
  | "3" => some (some .info)
  | "debug" => some (some .debug)
  | "4" => some (some .debug)
  | "trace" => some (some .trace)
  | "5" => some (some .trace)
  | _ => none

def isTopicChar (c : Char) : Bool :=
  c.isAlphanum || c == '_' || c == ':' || c == '-'

/-- Reads a directive; one that cannot be read is ignored. -/
def readDirective? (s : String) : Option LogDirective :=
  let topic := s.toList.takeWhile isTopicChar
  match levelWord? s with
  | some level => some ⟨"", level⟩
  | none =>
    if topic = [] then none
    else
      let name := if (levelWord? (String.ofList topic)).isSome then "" else String.ofList topic
      match s.toList.dropWhile isTopicChar with
      | [] => some ⟨name, some .trace⟩
      | ['='] => some ⟨name, some .trace⟩
      | '=' :: word => (levelWord? (String.ofList word)).map fun level => ⟨name, level⟩
      | _ => none

/-- Cuts a text at its commas. -/
def cutAtCommas : List Char → List (List Char)
  | [] => [[]]
  | c :: cs =>
    if c = ',' then [] :: cutAtCommas cs
    else
      match cutAtCommas cs with
      | [] => [[c]]
      | s :: ss => (c :: s) :: ss

/-- Reads a filter. One without directives shows errors only. -/
def parse (s : String) : LogFilter :=
  match (cutAtCommas s.toList).filterMap fun part => readDirective? (String.ofList part) with
  | [] => ⟨[⟨"", some .error⟩]⟩
  | directives => ⟨directives⟩

/-- The filter that shows records below `topic` from a level on, and warnings
of everything else. -/
def forTopic (topic : String) (level : LogLevel) : LogFilter :=
  ⟨[⟨"", some .warn⟩, ⟨topic, some level⟩]⟩

/-- Whether the second directive decides over the first one. -/
def overrides (a b : LogDirective) : Bool :=
  a.topic.length ≤ b.topic.length

/-- The directive that decides over a topic. -/
def deciding? (f : LogFilter) (topic : String) : Option LogDirective :=
  (f.directives.filter fun d => d.topic.toList.isPrefixOf topic.toList).foldl
    (fun best d =>
      match best with
      | none => some d
      | some b => if overrides b d then some d else some b)
    none

def shows (f : LogFilter) (topic : String) (level : LogLevel) : Bool :=
  match f.deciding? topic with
  | some ⟨_, some limit⟩ => limit.shows level
  | _ => false

end LogFilter

end RaceSkeletons
