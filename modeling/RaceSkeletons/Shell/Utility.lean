import RaceSkeletons.Shell.Format
import RaceSkeletons.Shell.Search
import RaceSkeletons.Shell.Condition

/-!
# Utilities

The programs of the host that need no shell: each takes its arguments and a
session, and answers the session behind it.
-/

namespace RaceSkeletons.Shell

abbrev Utility := List String → Session → Session

namespace Utility

/-- Prints the named files, or the input. -/
def concatenate : Utility := fun args s =>
  let files := args.filter fun a => a = "-" || !a.startsWith "-"
  let files := if files = [] then ["-"] else files
  files.foldl
    (fun s file =>
      match s.source file with
      | .ok content => s.write Session.out content
      | .error e => s.fail 1 ("cat: " ++ file ++ ": " ++ e.reason))
    (s.finish 0)

/-- The lines of a content, each with its line feed. -/
def rawLines (content : Bytes) : List Bytes :=
  let (line, lines) :=
    content.foldr
      (fun b (line, lines) => if b = 10 then ([10], line :: lines) else (b :: line, lines))
      (([], []) : Bytes × List Bytes)
  (line :: lines).filter (· ≠ [])

/-- Which part of a file is printed. -/
structure Part where
  bytes : Bool := false
  number : Nat := 10
  files : List String := []

/-- The part with the number that a text names. -/
def Part.counted (p : Part) (n : String) : Part :=
  { p with number := n.toNat?.getD p.number }

/-- Reads the arguments that choose a part. -/
def Part.ofArguments (p : Part) : List String → Part
  | [] => p
  | "-n" :: n :: rest => ofArguments (p.counted n) rest
  | "-c" :: n :: rest => ofArguments { p.counted n with bytes := true } rest
  | arg :: rest =>
    match arg.toList with
    | '-' :: 'n' :: n => ofArguments (p.counted (String.ofList n)) rest
    | '-' :: 'c' :: n => ofArguments { p.counted (String.ofList n) with bytes := true } rest
    | '-' :: c :: n => ofArguments (p.counted (String.ofList (c :: n))) rest
    | _ => ofArguments { p with files := p.files ++ [arg] } rest

/-- Prints the start or the end of a file. -/
def part (name : String) (fromEnd : Bool) : Utility := fun args s =>
  let p := Part.ofArguments {} args
  let file := p.files.head?.getD "-"
  match s.source file with
  | .error e =>
    s.fail 1 (name ++ ": cannot open '" ++ file ++ "' for reading: " ++ e.reason)
  | .ok content =>
    let cut := fun {α : Type} (l : List α) =>
      if fromEnd then l.drop (l.length - p.number) else l.take p.number
    let bytes := if p.bytes then cut content else (cut (rawLines content)).flatten
    (s.write Session.out bytes).finish 0

/-- Where a program refers to when it is used in a wrong way. -/
def helpHint (name : String) : String :=
  "Try '" ++ name ++ " --help' for more information."

def wordCount (content : Bytes) : Nat :=
  (content.foldl
    (fun (n, inside) b =>
      let blank := b = 32 || (9 ≤ b && b ≤ 13)
      (if !blank && !inside then n + 1 else n, !blank))
    ((0, false) : Nat × Bool)).1

/-- Counts the lines, words or bytes of a file. -/
def count : Utility := fun args s =>
  let letters := (args.filter (·.startsWith "-")).flatMap fun a => a.toList.drop 1
  let letters := if letters = [] then ['l', 'w', 'c'] else letters
  let file := (args.find? fun a => !a.startsWith "-")
  match s.source (file.getD "-") with
  | .error e => s.fail 1 ("wc: " ++ file.getD "-" ++ ": " ++ e.reason)
  | .ok content =>
    let counts := ['l', 'w', 'c'].filterMap fun c =>
      if !letters.contains c then none
      else if c = 'l' then some (content.count 10)
      else if c = 'w' then some (wordCount content)
      else some content.length
    let texts := counts.map toString ++ file.toList
    (s.print Session.out (String.intercalate " " texts ++ "\n")).finish 0

/-- A path without the slashes at its end. -/
def dropFinalSlashes (path : String) : List Char :=
  match (path.toList.reverse.dropWhile (· == '/')).reverse with
  | [] => if path.startsWith "/" then ['/'] else []
  | l => l

/-- Prints the last name of a path. -/
def lastName : Utility := fun args s =>
  match args with
  | [] => s.fail 1 ("basename: missing operand\n" ++ helpHint "basename")
  | path :: rest =>
    let body := dropFinalSlashes path
    let name :=
      if body = ['/'] then body else (body.reverse.takeWhile (· != '/')).reverse
    let ending := (rest.head?.getD "").toList
    let name :=
      if ending ≠ [] ∧ ending ≠ name ∧ ending.isSuffixOf name then
        name.take (name.length - ending.length)
      else name
    (s.print Session.out (String.ofList name ++ "\n")).finish 0

/-- Prints a path without its last name. -/
def directoryOf : Utility := fun args s =>
  match args with
  | [] => s.fail 1 ("dirname: missing operand\n" ++ helpHint "dirname")
  | path :: _ =>
    let body := dropFinalSlashes path
    let front := body.reverse.dropWhile (· != '/')
    let text :=
      if body = ['/'] then "/"
      else if front = [] then "."
      else String.ofList (dropFinalSlashes (String.ofList front.reverse))
    (s.print Session.out (text ++ "\n")).finish 0

/-- The nanoseconds that a time takes: a decimal number, with the letter of
a unit behind it; none when it has no end. -/
def sleepTime? (text : String) : Except String (Option Nat) :=
  if text = "inf" ∨ text = "infinity" then .ok none
  else
    let whole := text.toList.takeWhile Char.isDigit
    let rest := text.toList.dropWhile Char.isDigit
    let (fraction, rest) :=
      match rest with
      | '.' :: rest => (rest.takeWhile Char.isDigit, rest.dropWhile Char.isDigit)
      | rest => ([], rest)
    let unit? :=
      match rest with
      | [] => some 1
      | ['s'] => some 1
      | ['m'] => some 60
      | ['h'] => some 3600
      | ['d'] => some 86400
      | _ => none
    match unit? with
    | none => .error text
    | some unit =>
      if whole = [] ∧ fraction = [] then .error text
      else
        let digits := (String.ofList (whole ++ fraction)).toNat?.getD 0
        .ok (some (digits * unit * 1000000000 / Nat.pow 10 fraction.length))

def sleep : Utility := fun args s =>
  match args with
  | [] => s.fail 1 ("sleep: missing operand\n" ++ helpHint "sleep")
  | times =>
    times.foldl
      (fun s text =>
        match sleepTime? text with
        | .error text =>
          s.fail 1 ("sleep: invalid time interval '" ++ text ++ "'\n" ++ helpHint "sleep")
        | .ok none => { s with control := .endless }
        | .ok (some nanos) => { s with elapsed := s.elapsed + nanos })
      (s.finish 0)

def bracket : Utility := fun args s =>
  if args.getLast? = some "]" then testCommand "[" args.dropLast s
  else s.complain 2 "[: missing ]"

def formatted : Utility := fun args s =>
  match args with
  | [] => s.complain 2 "printf: usage: printf format [arg ...]"
  | "--" :: format :: rest => (s.write Session.out (printfOutput format rest)).finish 0
  | format :: rest => (s.write Session.out (printfOutput format rest)).finish 0

def echo : Utility := fun args s =>
  (s.write Session.out (echoOutput args)).finish 0

/-- Prints its arguments with blanks in between, and resolves escapes only if
an option asks for it. -/
def plainEcho : Utility := fun args s =>
  let isOption := fun (a : String) =>
    match a.toList with
    | '-' :: c :: rest => (c :: rest).all fun c => c == 'n' || c == 'e' || c == 'E'
    | _ => false
  let options := (args.takeWhile isOption).flatMap String.toList
  let texts := args.dropWhile isOption
  if options.contains 'e' then
    let args := if options.contains 'n' then "-n" :: texts else texts
    (s.write Session.out (echoOutput args)).finish 0
  else
    let ending := if options.contains 'n' then "" else "\n"
    (s.print Session.out (String.intercalate " " texts ++ ending)).finish 0

/-- A program that refuses options other than those of the given letters. -/
def checked (name letters : String) (program : Utility) : Utility := fun args s =>
  let options := (args.takeWhile (· ≠ "--")).filter fun a => a.startsWith "-"
  let unknown := (options.flatMap fun a => a.toList.drop 1).find? fun c =>
    !letters.toList.contains c && !c.isDigit
  match unknown with
  | none => program args s
  | some c =>
    s.fail 1
      (name ++ ": invalid option -- '" ++ String.singleton c ++ "'\n" ++ helpHint name)

/-- The program of a name, as the shell runs it. -/
def named? : String → Option Utility
  | "true" => some fun _ s => s.finish 0
  | "false" => some fun _ s => s.finish 1
  | "echo" => some echo
  | "printf" => some formatted
  | "cat" => some (checked "cat" "AbeEnstTuv" concatenate)
  | "head" => some (checked "head" "cnqvz" (part "head" false))
  | "tail" => some (checked "tail" "cnqvz" (part "tail" true))
  | "wc" => some (checked "wc" "clmwL" count)
  | "basename" => some (checked "basename" "asz" lastName)
  | "dirname" => some (checked "dirname" "z" directoryOf)
  | "test" => some (testCommand "test")
  | "[" => some bracket
  | "grep" => some searchCommand
  | "sleep" => some (checked "sleep" "" sleep)
  | _ => none

/-- The program of a name, as it runs without a shell. -/
def standalone? : String → Option Utility
  | "echo" => some plainEcho
  | name => named? name

/-- The names of all programs that need no shell. -/
def names : List String :=
  ["true", "false", "echo", "printf", "cat", "head", "tail", "wc", "basename", "dirname", "test",
   "[", "grep", "sleep"]

end Utility

end RaceSkeletons.Shell
