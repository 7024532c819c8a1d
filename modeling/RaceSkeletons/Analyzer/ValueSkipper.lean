import RaceSkeletons.Analyzer.NumberReader

/-!
# Passing over a value

The value of a key that the verdict does not know is passed over, however
deep its lists and objects are nested. The open ones are kept on an
explicit stack, and every step reads at least one character.
-/

namespace RaceSkeletons

/-- What a value that is being passed over is part of. -/
inductive Container where
  | list
  | object
  deriving Repr, DecidableEq

/-- The fault of a container that is neither continued nor closed. -/
def Container.expectedEnd : Container → PayloadFault
  | .list => .expectedListEnd
  | .object => .expectedObjectEnd

/-- The fault of a text that ends within a container. -/
def Container.unfinished : Container → PayloadFault
  | .list => .endInList
  | .object => .endInObject

/-- The bracket that closes a container. -/
def Container.closing : Container → Char
  | .list => ']'
  | .object => '\x7d'

namespace Cursor

/-- Reads the colon behind a key. -/
def readColon (c : Cursor) : Except PayloadError Cursor :=
  let c := c.skipBlank
  match c.rest with
  | [] => c.faultHere .endInObject
  | ':' :: _ => .ok (c.shift 1)
  | _ => c.faultAhead .expectedColon

/-- Passes over a key and its colon. -/
def skipKey (c : Cursor) : Except PayloadError Cursor :=
  let c := c.skipBlank
  match c.rest with
  | [] => c.faultHere .endInObject
  | '"' :: _ =>
    match (c.shift 1).skipString with
    | .error e => .error e
    | .ok after => after.readColon
  | _ => c.faultAhead .keyNotString

/-- Where the next value of a container starts: behind its key, for an
object. -/
def skipToValue : Container → Cursor → Except PayloadError Cursor
  | .list, c => .ok c
  | .object, c => c.skipKey

/-- A point between two steps: before a value, or behind one, within the
containers that are open, innermost first. -/
structure SkipState where
  isBefore : Bool
  within : List Container
  cursor : Cursor

/-- The state behind a value. -/
def behind (within : List Container) (c : Cursor) : SkipState := ⟨false, within, c⟩

/-- Opens a container; the cursor is behind its opening bracket. -/
def openContainer (kind : Container) (within : List Container) (c : Cursor) :
    Except PayloadError SkipState :=
  let c := c.skipBlank
  match c.rest with
  | [] => c.faultHere kind.unfinished
  | x :: _ =>
    if x = kind.closing then .ok (behind within (c.shift 1))
    else
      match c.skipToValue kind with
      | .error e => .error e
      | .ok after => .ok ⟨true, kind :: within, after⟩

/-- One step from before a value. -/
def stepBefore (within : List Container) (c : Cursor) : Except PayloadError SkipState :=
  let c := c.skipBlank
  match c.rest with
  | [] => c.faultHere .endInValue
  | x :: _ =>
    if x = 'n' then ((c.shift 1).readLetters ['u', 'l', 'l']).map (behind within)
    else if x = 't' then ((c.shift 1).readLetters ['r', 'u', 'e']).map (behind within)
    else if x = 'f' then ((c.shift 1).readLetters ['a', 'l', 's', 'e']).map (behind within)
    else if x = '-' then (c.shift 1).skipNumber.map (behind within)
    else if x.isDigit then c.skipNumber.map (behind within)
    else if x = '"' then (c.shift 1).skipString.map (behind within)
    else if x = '[' then openContainer .list within (c.shift 1)
    else if x = '\x7b' then openContainer .object within (c.shift 1)
    else c.faultAhead .expectedValue

/-- One step from behind a value in a container: on to its next value, or out
of the container. -/
def stepBehind (kind : Container) (within : List Container) (c : Cursor) :
    Except PayloadError SkipState :=
  let c := c.skipBlank
  match c.rest with
  | [] => c.faultHere kind.unfinished
  | x :: _ =>
    if x = ',' then
      match (c.shift 1).skipToValue kind with
      | .error e => .error e
      | .ok after => .ok ⟨true, kind :: within, after⟩
    else if x = kind.closing then .ok (behind within (c.shift 1))
    else c.faultAhead kind.expectedEnd

theorem size_readColon {c after : Cursor} (h : c.readColon = .ok after) :
    after.size ≤ c.size := by
  unfold readColon at h
  simp only at h
  split at h
  · cases h
  · cases h
    exact Nat.le_trans (by simp) (size_skipBlank_le c)
  · cases h

theorem size_skipKey {c after : Cursor} (h : c.skipKey = .ok after) : after.size ≤ c.size := by
  unfold skipKey at h
  simp only at h
  split at h
  · cases h
  · split at h
    · cases h
    · next hs =>
      have h1 := size_readColon h
      have h2 := size_skipString hs
      have h3 := size_skipBlank_le c
      simp only [size_shift] at h2
      omega
  · cases h

theorem size_skipToValue {kind : Container} {c after : Cursor}
    (h : c.skipToValue kind = .ok after) : after.size ≤ c.size := by
  cases kind with
  | list => cases h; exact Nat.le_refl _
  | object => exact size_skipKey h

theorem size_openContainer {kind : Container} {within : List Container} {c : Cursor}
    {s : SkipState} (h : openContainer kind within c = .ok s) : s.cursor.size ≤ c.size := by
  unfold openContainer at h
  simp only at h
  have hb := size_skipBlank_le c
  split at h
  · cases h
  · split at h
    · cases h
      simp only [behind, size_shift]
      omega
    · split at h
      · cases h
      · next ho =>
        cases h
        exact Nat.le_trans (size_skipToValue ho) hb

theorem size_map_behind {within : List Container} {r : Except PayloadError Cursor}
    {s : SkipState} (h : r.map (behind within) = .ok s) : r = .ok s.cursor := by
  cases r with
  | error e => cases h
  | ok c => cases h; rfl

/-- A step from before a value reads at least one character. -/
theorem size_stepBefore {within : List Container} {c : Cursor} {s : SkipState}
    (h : stepBefore within c = .ok s) : s.cursor.size < c.size := by
  unfold stepBefore at h
  simp only at h
  have hb := size_skipBlank_le c
  split at h
  · cases h
  · next hrest =>
    have hpos : 0 < c.skipBlank.size := size_pos hrest
    have hshift : (c.skipBlank.shift 1).size < c.skipBlank.size := by
      simp only [size_shift]; omega
    repeat' split at h
    all_goals first
      | exact Nat.lt_of_le_of_lt (size_readLetters (size_map_behind h)) (by omega)
      | exact Nat.lt_of_lt_of_le (size_skipNumber (size_map_behind h)) (by omega)
      | exact Nat.lt_of_le_of_lt (size_skipString (size_map_behind h)) (by omega)
      | exact Nat.lt_of_le_of_lt (size_openContainer h) (by omega)
      | cases h

/-- A step from behind a value reads at least one character. -/
theorem size_stepBehind {kind : Container} {within : List Container} {c : Cursor}
    {s : SkipState} (h : stepBehind kind within c = .ok s) : s.cursor.size < c.size := by
  unfold stepBehind at h
  simp only at h
  have hb := size_skipBlank_le c
  split at h
  · cases h
  · next hrest =>
    have hpos : 0 < c.skipBlank.size := size_pos hrest
    split at h
    · split at h
      · cases h
      · next ho =>
        cases h
        have hto := size_skipToValue ho
        simp only [size_shift] at hto ⊢
        omega
    · split at h
      · cases h
        simp only [behind, size_shift]
        omega
      · cases h

/-- Steps until the value that was begun first has been passed over. -/
def skipFrom (isBefore : Bool) (within : List Container) (c : Cursor) :
    Except PayloadError Cursor :=
  match isBefore, within with
  | true, within =>
    match h : stepBefore within c with
    | .error e => .error e
    | .ok s =>
      have := size_stepBefore h
      skipFrom s.isBefore s.within s.cursor
  | false, [] => .ok c
  | false, kind :: within =>
    match h : stepBehind kind within c with
    | .error e => .error e
    | .ok s =>
      have := size_stepBehind h
      skipFrom s.isBefore s.within s.cursor
termination_by c.size

/-- Passes over one value. -/
def skipValue (c : Cursor) : Except PayloadError Cursor :=
  skipFrom true [] c

theorem size_skipFrom {isBefore : Bool} {within : List Container} {c after : Cursor}
    (h : skipFrom isBefore within c = .ok after) : after.size ≤ c.size := by
  fun_induction skipFrom isBefore within c with
  | case1 => cases h
  | case2 _ _ _ _ hlt ih => exact Nat.le_trans (ih h) (Nat.le_of_lt hlt)
  | case3 => cases h; exact Nat.le_refl _
  | case4 => cases h
  | case5 _ _ _ _ _ hlt ih => exact Nat.le_trans (ih h) (Nat.le_of_lt hlt)

theorem size_skipValue {c after : Cursor} (h : c.skipValue = .ok after) :
    after.size ≤ c.size :=
  size_skipFrom h

end Cursor

end RaceSkeletons
