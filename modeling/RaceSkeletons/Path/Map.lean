import RaceSkeletons.Path.Basic

/-!
# Maps keyed by paths

Analyzer results and diagnostics are stored under the path they belong to.
The map is a list in ascending order of its keys, so that two maps with the
same associations are the same list, and listing a map needs no sorting.
-/

namespace RaceSkeletons

/-- Associations of paths with values, in ascending order of paths. -/
structure PathMap (α : Type) where
  toList : List (Path × α)
  deriving Repr, DecidableEq

namespace PathMap

variable {α : Type}

def empty : PathMap α := ⟨[]⟩

instance : Inhabited (PathMap α) := ⟨empty⟩

/-- Puts an association into an ascending list. An equal key keeps its
spelling and its place, and gets the new value. -/
def insertInto (key : Path) (value : α) : List (Path × α) → List (Path × α)
  | [] => [(key, value)]
  | (k, v) :: rest =>
    match key.order k with
    | .lt => (key, value) :: (k, v) :: rest
    | .eq => (k, value) :: rest
    | .gt => (k, v) :: insertInto key value rest

/-- The map with `key` associated with `value`. -/
def insert (m : PathMap α) (key : Path) (value : α) : PathMap α :=
  ⟨insertInto key value m.toList⟩

def get? (m : PathMap α) (key : Path) : Option α :=
  (m.toList.find? fun entry => entry.1.same key).map (·.2)

def size (m : PathMap α) : Nat :=
  m.toList.length

/-- The values in the order of their keys. -/
def values (m : PathMap α) : List α :=
  m.toList.map (·.2)

/-- Inserts the associations of a list one after the other. -/
def ofList (entries : List (Path × α)) : PathMap α :=
  entries.foldl (fun m entry => m.insert entry.1 entry.2) empty

end PathMap

end RaceSkeletons
