import RaceSkeletons.FileSystem.Basic

/-!
# Walking a directory tree

A walk lists everything below a path, depth first, through symbolic links.
Each directory is listed before its entries, and the entries of a directory
come in a given order. The order sees an entry as the directory lists it,
so a link to a directory is not a directory to it.

A link that leads back to a directory the walk is in would make the walk
endless; it is answered as an error, like a link that leads nowhere. An entry
that is no link is what its directory lists it as, even when its own path is
too long to lead to it. A directory that cannot be listed is visited, and in
place of its entries comes an error.
-/

namespace RaceSkeletons

/-- Why an entry could not be visited. -/
inductive WalkError where
  | io (path : Path) (error : FileError)
  /-- A link leads to a directory that cannot be opened to see which one it is. -/
  | unopened (error : FileError)
  /-- The link `path` leads to the directory that the walk entered as
  `ancestor`. -/
  | loop (path ancestor : Path)
  deriving Repr, DecidableEq

def WalkError.message : WalkError → String
  | .io path error => "IO error for operation on " ++ path.text ++ ": " ++ error.message
  | .unopened error => error.message
  | .loop path ancestor =>
    "File system loop found: " ++ path.text ++ " points to an ancestor " ++ ancestor.text

/-- What a walk meets at a path, links followed. -/
inductive Visit where
  | file (path : Path)
  | dir (path : Path)
  /-- Neither a directory nor a regular file. -/
  | special (path : Path)
  | failed (error : WalkError)
  deriving Repr, DecidableEq

/-- A comparison of the entries of one directory. -/
abbrev EntryOrder := (String × Node) → (String × Node) → Bool

/-- Entries in the order of their names. -/
def byName : EntryOrder := fun a b => (compare a.1 b.1).isLE

/-- Directories after all other entries, and each kind by name. -/
def filesFirst : EntryOrder := fun a b =>
  match a.2 == .dir, b.2 == .dir with
  | false, true => true
  | true, false => false
  | _, _ => byName a b

namespace FileSystem

variable (fs : FileSystem)

/-- What an entry of a walk is, links followed. `around` are the directories
that the walk is in, innermost first, and `node` is what stands at the path
itself. -/
def visitNode (around : List (Path × Location)) (p : Path) (node : Node) :
    Except WalkError Node :=
  match node with
  | .link _ =>
    match fs.target? p with
    | .error e => .error (.io p e)
    | .ok (location, .dir) =>
      match fs.unlisted.lookup location with
      | some e => .error (.unopened e)
      | none =>
        match around.find? fun a => a.2 = location with
        | some a => .error (.loop p a.1)
        | none => .ok .dir
    | .ok (_, found) => .ok found
  | _ => .ok node

/-- Walks the tree at a path where a node stands, at most `depth` directories
deep. -/
def walkWithin (order : EntryOrder) :
    (depth : Nat) → (around : List (Path × Location)) → Path → Node → List Visit
  | 0, _, _, _ => []
  | depth + 1, around, p, node =>
    match fs.visitNode around p node with
    | .error e => [.failed e]
    | .ok .dir =>
      .dir p ::
        match fs.listDir p with
        | .error e => [.failed (.io p e)]
        | .ok location =>
          ((fs.children location).mergeSort order).flatMap fun child =>
            walkWithin order depth ((p, location) :: around) (p.join child.1) child.2
    | .ok found => [if found.isRegular then .file p else .special p]

/-- A bound on the depth of walks: between two links the walk goes down a
chain of entries, and no two links lead to the same directory. -/
def walkDepth : Nat :=
  (fs.entries.length + 2) * (fs.entries.length + 2)

/-- Everything at and below a path. -/
def walk (order : EntryOrder) (root : Path) : List Visit :=
  match fs.locate false root with
  | .error e => [.failed (.io root e)]
  | .ok ⟨_, none⟩ => [.failed (.io root .notFound)]
  | .ok ⟨_, some node⟩ => fs.walkWithin order fs.walkDepth [] root node

/-- Everything below a directory, links not followed: paths with their
nodes, names in order. -/
def treeWithin : (depth : Nat) → Location → Path → List (Path × Node)
  | 0, _, _ => []
  | depth + 1, location, p =>
    ((fs.children location).mergeSort byName).flatMap fun child =>
      let path := p.join child.1
      (path, child.2) ::
        if child.2 = .dir then treeWithin depth (location ++ [child.1]) path else []

/-- The tree below a directory, links not followed. -/
def tree (root : Path) : List (Path × Node) :=
  match fs.target? root with
  | .ok (location, .dir) => fs.treeWithin (fs.entries.length + 1) location root
  | _ => []

end FileSystem

end RaceSkeletons
