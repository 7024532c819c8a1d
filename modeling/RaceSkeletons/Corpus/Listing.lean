import RaceSkeletons.Corpus.Accounts
import RaceSkeletons.Render.Format

/-!
# Listings

A listing shows what is in a corpus without its contents: the cases with
the names of their fragments, and the directories that are no cases.
-/

namespace RaceSkeletons

/-- A case by its names. -/
structure ListedCase where
  id : String
  first : String
  second : String
  deriving Repr, DecidableEq, Inhabited

/-- A corpus by the names in it. -/
structure Listing where
  root : Path
  subdirectories : Nat
  cases : List ListedCase
  excluded : List ExcludedCase
  deriving Repr, DecidableEq, Inhabited

def Case.listed (c : Case) : ListedCase :=
  ⟨c.id, c.first.name, c.second.name⟩

def Discovery.listing (d : Discovery) (root : Path) : Listing :=
  { root
    subdirectories := d.totalSubdirs
    cases := d.cases.map Case.listed
    excluded := d.excluded }

/-- An excluded directory as a document. -/
def ExcludedCase.document (e : ExcludedCase) : Document :=
  .record [
    ("case_id", .text e.caseId),
    ("dir", .text e.dir.text),
    ("found", .number e.found),
    ("extension", .text e.extension)]

/-- A listed case as a document. -/
def ListedCase.document (c : ListedCase) : Document :=
  .record [("id", .text c.id), ("first", .text c.first), ("second", .text c.second)]

namespace Listing

/-- A listing as a document. -/
def document (l : Listing) : Document :=
  .record [
    ("root", .text l.root.text),
    ("subdirectories", .number l.subdirectories),
    ("cases", .list (l.cases.map ListedCase.document)),
    ("excluded", .list (l.excluded.map ExcludedCase.document))]

/-- Branches of a tree, one line each; the last one ends the tree. -/
def branches : List String → String
  | [] => ""
  | [label] => "└─ " ++ label ++ "\n"
  | label :: next :: labels => "├─ " ++ label ++ "\n" ++ branches (next :: labels)

def caseLabel (c : ListedCase) : String :=
  c.id ++ ": " ++ c.first ++ ", " ++ c.second

def excludedLabel (e : ExcludedCase) : String :=
  e.caseId ++ ": excluded (" ++ toString e.found ++ " ." ++ e.extension ++ " files)"

def text (l : Listing) : String :=
  l.root.text ++ " (" ++ toString l.subdirectories ++ " subdirectories, " ++
    toString l.cases.length ++ " valid, " ++ toString l.excluded.length ++ " excluded)\n" ++
    branches (l.cases.map caseLabel ++ l.excluded.map excludedLabel)

def render (l : Listing) (format : OutputFormat) : String :=
  format.render l.text l.document

end Listing

end RaceSkeletons
