import RaceSkeletons.Analyzer.Payload

/-!
# A place in a document

Readers of a document pass along a cursor: the text that is left, and where
it starts in terms of lines and bytes. Faults are located either at the
cursor or one byte further, at the byte that was looked at.
-/

namespace RaceSkeletons

/-- The position behind `c`. -/
def TextPosition.after (p : TextPosition) (c : Char) : TextPosition :=
  if c = '\n' then ⟨p.line + 1, 0⟩ else ⟨p.line, p.column + c.utf8Size⟩

/-- The position `n` bytes further in `text`, or at its end. -/
def TextPosition.afterBytes (p : TextPosition) : (n : Nat) → List Char → TextPosition
  | 0, _ => p
  | _, [] => p
  | n + 1, c :: rest =>
    if c = '\n' then (p.after c).afterBytes n rest
    else if c.utf8Size ≤ n + 1 then (p.after c).afterBytes (n + 1 - c.utf8Size) rest
    else ⟨p.line, p.column + (n + 1)⟩
termination_by _ text => text.length

/-- A text to read, and where it starts. -/
structure Cursor where
  rest : List Char
  position : TextPosition
  deriving Repr, DecidableEq

/-- The result of a reader: a value and the cursor behind it. -/
abbrev Reading (α : Type) := Except PayloadError (α × Cursor)

namespace Cursor

def ofString (s : String) : Cursor := ⟨s.toList, ⟨1, 0⟩⟩

def size (c : Cursor) : Nat := c.rest.length

theorem size_pos {c : Cursor} {x : Char} {after : List Char} (h : c.rest = x :: after) :
    0 < c.size := by
  rw [size, h]
  exact Nat.succ_pos _

/-- The cursor `n` characters further. -/
def shift : (n : Nat) → Cursor → Cursor
  | 0, c => c
  | _ + 1, ⟨[], p⟩ => ⟨[], p⟩
  | n + 1, ⟨c :: rest, p⟩ => shift n ⟨rest, p.after c⟩

@[simp] theorem size_shift (n : Nat) (c : Cursor) : (c.shift n).size = c.size - n := by
  induction n generalizing c with
  | zero => simp [shift]
  | succ n ih =>
    obtain ⟨rest, p⟩ := c
    cases rest with
    | nil => simp [shift, size]
    | cons x rest => simpa [shift, size] using ih ⟨rest, p.after x⟩

theorem size_shift_one_lt {c : Cursor} {x : Char} {after : List Char} (h : c.rest = x :: after) :
    (c.shift 1).size < c.size := by
  rw [size_shift]
  exact Nat.sub_lt (size_pos h) Nat.one_pos

/-- The number of characters at the cursor that pass a test. -/
def run (test : Char → Bool) (c : Cursor) : List Char :=
  c.rest.takeWhile test

/-- The cursor behind the characters that pass a test. -/
def skip (test : Char → Bool) (c : Cursor) : Cursor :=
  c.shift (c.run test).length

theorem size_skip_le (test : Char → Bool) (c : Cursor) : (c.skip test).size ≤ c.size := by
  simp [skip]

def isJsonBlank (c : Char) : Bool :=
  c == ' ' || c == '\n' || c == '\t' || c == '\r'

/-- The cursor behind the blanks. -/
def skipBlank (c : Cursor) : Cursor :=
  c.skip isJsonBlank

theorem size_skipBlank_le (c : Cursor) : c.skipBlank.size ≤ c.size :=
  size_skip_le _ c

/-- The position behind the next byte. -/
def ahead (c : Cursor) : TextPosition :=
  c.position.afterBytes 1 c.rest

/-- A fault at the cursor. -/
def faultHere {α : Type} (c : Cursor) (fault : PayloadFault) : Except PayloadError α :=
  .error ⟨fault, c.position⟩

/-- A fault at the next byte. -/
def faultAhead {α : Type} (c : Cursor) (fault : PayloadFault) : Except PayloadError α :=
  .error ⟨fault, c.ahead⟩

end Cursor

end RaceSkeletons
