import RaceSkeletons.CommandLine.Options

/-!
# Scanning arguments

The arguments of one level are cut into occurrences of options with their
values, before any value is looked at. The scan ends with the arguments, at
a subcommand, or at an argument that nothing is known about.
-/

namespace RaceSkeletons

/-- An option that was given, with its value if it has one. -/
structure OptionUse where
  id : OptionId
  value : Option String := none
  /-- Whether the value is looked at only when the next option is met: it
  came as an argument of its own, or never came. -/
  isOpen : Bool := false
  deriving Repr, DecidableEq

/-- How a scan ends. -/
inductive ScanEnd where
  | finished
  | subcommand (name : String) (rest : List String)
  /-- The scan stops at a fault of its own. Open values are looked at before
  it is reported only if `settles` is set. -/
  | stopped (error : UsageError) (settles : Bool)
  deriving Repr, DecidableEq

/-- The options that were met, and how the scan ended. -/
structure Scan where
  uses : List OptionUse
  ending : ScanEnd
  deriving Repr, DecidableEq

namespace Scan

/-- The scan with an option in front. -/
def cons (u : OptionUse) (s : Scan) : Scan :=
  { s with uses := u :: s.uses }

/-- A scan that ends without further options. -/
def ended (e : ScanEnd) : Scan := ⟨[], e⟩

end Scan

/-- What an argument looks like. -/
inductive ArgumentShape where
  /-- Two dashes: all that follows are values. -/
  | escape
  | long (name : String) (value : Option String)
  | short (letters : List Char)
  | word
  deriving Repr, DecidableEq

/-- The text before and behind the first `=`. -/
def splitAtEquals (s : List Char) : String × Option String :=
  match s.dropWhile (· != '=') with
  | [] => (String.ofList s, none)
  | _ :: value => (String.ofList (s.takeWhile (· != '=')), some (String.ofList value))

/-- What an argument looks like. A single dash is a word. -/
def argumentShape (argument : String) : ArgumentShape :=
  match argument.toList with
  | ['-', '-'] => .escape
  | '-' :: '-' :: rest => let (name, value) := splitAtEquals rest; .long name value
  | '-' :: c :: rest => .short (c :: rest)
  | _ => .word

/-- What follows the letters of one argument. -/
inductive ShortEnd where
  | closed
  /-- An option still needs its value. -/
  | waiting (o : OptionSpec)
  | stopped (error : UsageError) (settles : Bool)
  deriving Repr, DecidableEq

namespace CommandLevel

/-- The occurrence of an option without value; asking for help or for the
version stops the scan. -/
def flagUse (o : OptionSpec) : OptionUse ⊕ UsageError :=
  match o.id with
  | .help => .inr .help
  | .version => .inr .version
  | id => .inl { id }

/-- Scans the letters behind a single dash. What follows an option with a
value is its value, with or without `=`. -/
def scanShort (level : CommandLevel) : List Char → List OptionUse × ShortEnd
  | [] => ([], .closed)
  | c :: rest =>
    match level.byShort? c with
    | none => ([], .stopped .unknownArgument false)
    | some o =>
      if o.takesValue then
        match rest with
        | [] => ([], .waiting o)
        | '=' :: value => ([{ id := o.id, value := some (String.ofList value) }], .closed)
        | value => ([{ id := o.id, value := some (String.ofList value) }], .closed)
      else
        match flagUse o with
        | .inr e => ([], .stopped e true)
        | .inl use =>
          let (uses, ending) := scanShort level rest
          (use :: uses, ending)

/-- The fault of a word that nothing is known about. -/
def wordFault (level : CommandLevel) (escaped : Bool) (word : String) : UsageError :=
  if level = .program && !(escaped && level.isSubcommand word) then .unknownSubcommand
  else .unknownArgument

/-- Whether an option takes an argument of this shape as its value. -/
def accepts (o : OptionSpec) (shape : ArgumentShape) : Bool :=
  o.value = .any || shape = .word

/-- Scans the values behind two dashes. -/
def scanValues (level : CommandLevel) (slot : Option OptionId) : List String → Scan
  | [] => .ended .finished
  | argument :: rest =>
    match slot with
    | none => .ended (.stopped (level.wordFault true argument) false)
    | some id =>
      .cons { id, value := some argument, isOpen := true } (scanValues level none rest)

/-- Scans arguments. `waiting` is the option that needs a value, and `slot`
is what the next word sets. -/
def scan (level : CommandLevel) (slot : Option OptionId) (waiting : Option OptionSpec) :
    List String → Scan
  | [] =>
    match waiting with
    | none => .ended .finished
    | some o => .cons { id := o.id, isOpen := true } (.ended .finished)
  | argument :: rest =>
    let shape := argumentShape argument
    match waiting.filter (accepts · shape) with
    | some o =>
      .cons { id := o.id, value := some argument, isOpen := true } (scan level slot none rest)
    | none =>
      let tail : Scan :=
        match shape with
        | .escape => scanValues level slot rest
        | .long name value =>
          match level.byLong? name with
          | none => .ended (.stopped .unknownArgument false)
          | some o =>
            if o.takesValue then
              match value with
              | some value => .cons { id := o.id, value := some value } (scan level slot none rest)
              | none => scan level slot (some o) rest
            else if value.isSome then .ended (.stopped .tooManyValues false)
            else
              match flagUse o with
              | .inr e => .ended (.stopped e true)
              | .inl use => .cons use (scan level slot none rest)
        | .short letters =>
          match level.scanShort letters with
          | (uses, .closed) =>
            let following := scan level slot none rest
            { following with uses := uses ++ following.uses }
          | (uses, .waiting o) =>
            let following := scan level slot (some o) rest
            { following with uses := uses ++ following.uses }
          | (uses, .stopped e settles) => ⟨uses, .stopped e settles⟩
        | .word =>
          if level.isSubcommand argument then .ended (.subcommand argument rest)
          else
            match slot with
            | none => .ended (.stopped (level.wordFault false argument) false)
            | some id =>
              .cons { id, value := some argument, isOpen := true } (scan level none none rest)
      match waiting with
      | none => tail
      | some o => .cons { id := o.id, isOpen := true } tail

def scanAll (level : CommandLevel) (arguments : List String) : Scan :=
  level.scan level.positional? none arguments

end CommandLevel

end RaceSkeletons
