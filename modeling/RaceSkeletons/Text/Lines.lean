/-!
# Pieces and lines

A text is cut in two ways. Its *pieces* are what stands between its line
feeds: `n` line feeds make `n + 1` pieces, and joining the pieces gives
the text back (`joinPieces_pieces`). Its *lines* are what a reader of the
file sees: the piece after a final line feed is no line, and a carriage
return right before a line feed belongs to the line end.
-/

namespace RaceSkeletons.Text

/-- The texts between the line feeds of `s`. -/
def pieces : List Char → List (List Char)
  | [] => [[]]
  | c :: cs =>
    if c = '\n' then [] :: pieces cs
    else
      match pieces cs with
      | [] => [[c]]
      | p :: ps => (c :: p) :: ps

/-- Puts a line feed between any two neighbours of a list of pieces. -/
def joinPieces : List (List Char) → List Char
  | [] => []
  | [p] => p
  | p :: q :: ps => p ++ '\n' :: joinPieces (q :: ps)

theorem pieces_ne_nil (s : List Char) : pieces s ≠ [] := by
  cases s with
  | nil => simp [pieces]
  | cons c cs =>
    unfold pieces
    split
    · simp
    · split <;> simp

theorem joinPieces_cons_head (c : Char) (p : List Char) (ps : List (List Char)) :
    joinPieces ((c :: p) :: ps) = c :: joinPieces (p :: ps) := by
  cases ps <;> rfl

/-- Cutting at line feeds loses nothing. -/
theorem joinPieces_pieces (s : List Char) : joinPieces (pieces s) = s := by
  induction s with
  | nil => rfl
  | cons c cs ih =>
    unfold pieces
    split
    · next h =>
      subst h
      cases hp : pieces cs with
      | nil => exact absurd hp (pieces_ne_nil cs)
      | cons p ps => rw [hp] at ih; simp [joinPieces, ih]
    · split
      · next hp => exact absurd hp (pieces_ne_nil cs)
      · next p ps hp => rw [joinPieces_cons_head, ← hp, ih]

/-- A line without the carriage return of its line end. -/
def dropReturn (line : List Char) : List Char :=
  if line.getLast? = some '\r' then line.dropLast else line

/-- The lines that a list of pieces stands for: the last piece is a line
only when it holds something, and it has no line end to take off. -/
def closeLines : List (List Char) → List (List Char)
  | [] => []
  | [p] => if p.isEmpty then [] else [p]
  | p :: q :: ps => dropReturn p :: closeLines (q :: ps)

/-- The lines of a text, without their line ends. -/
def lines (s : List Char) : List (List Char) :=
  closeLines (pieces s)

end RaceSkeletons.Text
