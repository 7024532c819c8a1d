/-!
# Paths

A path is kept as it was written, because reports show it that way, but it
is compared by its components: `a//b`, `a/./b` and `a/b/` name the same
thing as `a/b`. Nothing here looks at a file system; `a/..` stays as it is.
-/

namespace RaceSkeletons

/-- A path as it was written. -/
structure Path where
  text : String
  deriving Repr, DecidableEq, Inhabited

namespace Path

/-- One component of a path. -/
inductive Component where
  /-- The leading slash of an absolute path. -/
  | root
  /-- A leading `.`. -/
  | current
  /-- `..`. -/
  | parent
  | normal (name : String)
  deriving Repr, DecidableEq

/-- Components of different kinds are ordered by kind. -/
def Component.rank : Component → Nat
  | .root => 0
  | .current => 1
  | .parent => 2
  | .normal _ => 3

/-- The order of components: by kind, then by name. -/
def Component.order : Component → Component → Ordering
  | .normal a, .normal b => compare a b
  | a, b => compare a.rank b.rank

/-- The texts between the slashes. -/
def segments (p : Path) : List String :=
  (cut p.text.toList).map String.ofList
where
  /-- Cuts a text at its slashes. -/
  cut : List Char → List (List Char)
    | [] => [[]]
    | c :: cs =>
      if c = '/' then [] :: cut cs
      else
        match cut cs with
        | [] => [[c]]
        | s :: ss => (c :: s) :: ss

/-- Whether the path starts at the root directory. -/
def isAbsolute (p : Path) : Bool :=
  p.text.toList.head? == some '/'

/-- The component a segment stands for, unless it is empty or a dot. -/
def componentOf? (segment : String) : Option Component :=
  if segment = "" ∨ segment = "." then none
  else if segment = ".." then some .parent
  else some (.normal segment)

/-- The components of a path. A dot counts only where a relative path starts
with it. -/
def components (p : Path) : List Component :=
  let body := p.segments.filterMap componentOf?
  if p.isAbsolute then .root :: body
  else if p.segments.head? = some "." then .current :: body
  else body

/-- The order of two lists of components: the first difference decides, and
a proper beginning comes first. -/
def orderComponents : List Component → List Component → Ordering
  | [], [] => .eq
  | [], _ :: _ => .lt
  | _ :: _, [] => .gt
  | a :: as, b :: bs => (a.order b).then (orderComponents as bs)

/-- The order of paths. -/
def order (p q : Path) : Ordering :=
  orderComponents p.components q.components

/-- Whether two paths have the same components. -/
def same (p q : Path) : Bool :=
  p.components == q.components

/-- The name a path ends with; none for the root, for `..` and for the
empty path. -/
def fileName? (p : Path) : Option String :=
  match p.components.getLast? with
  | some (.normal name) => some name
  | _ => none

/-- The name a path ends with, or the empty text. -/
def fileName (p : Path) : String :=
  p.fileName?.getD ""

/-- The part of a name after its last dot, unless there is no dot or the
only dot is its first character. -/
def extensionOfName? (name : List Char) : Option (List Char) :=
  let after := name.reverse.takeWhile (· != '.')
  match name.reverse.dropWhile (· != '.') with
  | [] => none
  | [_] => none
  | _ :: _ :: _ => some after.reverse

def hasExtension (p : Path) (extension : String) : Bool :=
  match p.fileName? with
  | none => false
  | some name => extensionOfName? name.toList == some extension.toList

/-- Drops empty segments and dots at the end, but never the first segment. -/
def trimSegments : List String → List String
  | [] => []
  | first :: rest =>
    first :: (rest.reverse.dropWhile fun s => s = "" ∨ s = ".").reverse

/-- The path without its last component; none when there is nothing to take
away. -/
def parent? (p : Path) : Option Path :=
  match trimSegments p.segments with
  | [] | [""] => none
  | segments =>
    let kept := trimSegments segments.dropLast
    if kept = [""] then some ⟨"/"⟩
    else some ⟨String.intercalate "/" kept⟩

/-- The path of an entry of the directory `p`. -/
def join (p : Path) (name : String) : Path :=
  if name.toList.head? = some '/' ∨ p.text = "" then ⟨name⟩
  else if p.text.toList.getLast? = some '/' then ⟨p.text ++ name⟩
  else ⟨p.text ++ "/" ++ name⟩

/-- The path with its last name replaced. -/
def withFileName (p : Path) (name : String) : Path :=
  match p.fileName? with
  | none => p.join name
  | some _ => (p.parent?.getD ⟨""⟩).join name

end Path

end RaceSkeletons
