import RaceSkeletons.Analyzer.Cursor

/-!
# Reading strings and literals

Strings of a document, with their escapes. A string whose value is used has
its escapes decoded, and surrogates must come in pairs; a string that is
only passed over is checked for the form of its escapes alone.
-/

namespace RaceSkeletons

namespace Cursor

def hexValue? (c : Char) : Option Nat :=
  if c.isDigit then some (c.toNat - 48)
  else if 'a' ≤ c ∧ c ≤ 'f' then some (c.toNat - 87)
  else if 'A' ≤ c ∧ c ≤ 'F' then some (c.toNat - 55)
  else none

/-- The value of the four hexadecimal digits a text starts with. -/
def fourHex? : List Char → Option Nat
  | a :: b :: c :: d :: _ => do
    let a ← hexValue? a
    let b ← hexValue? b
    let c ← hexValue? c
    let d ← hexValue? d
    return ((a * 16 + b) * 16 + c) * 16 + d
  | _ => none

/-- The number of bytes a text takes. -/
def bytesOf (s : List Char) : Nat :=
  s.foldr (fun c n => c.utf8Size + n) 0

def readHex (c : Cursor) : Reading Nat :=
  match fourHex? c.rest with
  | some n => .ok (n, c.shift 4)
  | none =>
    if 4 ≤ bytesOf c.rest then .error ⟨.invalidEscape, c.position.afterBytes 4 c.rest⟩
    else .error ⟨.endInString, c.position.afterBytes 4 c.rest⟩

def escapeLetter? : Char → Option Char
  | '"' => some '"'
  | '\\' => some '\\'
  | '/' => some '/'
  | 'b' => some '\x08'
  | 'f' => some '\x0c'
  | 'n' => some '\n'
  | 'r' => some '\r'
  | 't' => some '\t'
  | _ => none

/-- Whether a code unit is the first half of a pair. -/
def isLeadingSurrogate (n : Nat) : Bool := 0xd800 ≤ n && n ≤ 0xdbff

/-- Whether a code unit is the second half of a pair. -/
def isTrailingSurrogate (n : Nat) : Bool := 0xdc00 ≤ n && n ≤ 0xdfff

/-- The character that a pair of code units stands for. -/
def pairChar (high low : Nat) : Char :=
  Char.ofNat (0x10000 + (high - 0xd800) * 0x400 + (low - 0xdc00))

/-- Reads the second half of a pair whose first half is `high`. -/
def readTrailing (high : Nat) (c : Cursor) : Reading (List Char) :=
  match c.rest with
  | [] => c.faultHere .endInString
  | ['\\'] => (c.shift 1).faultHere .endInString
  | '\\' :: 'u' :: _ =>
    match (c.shift 2).readHex with
    | .error e => .error e
    | .ok (low, after) =>
      if isTrailingSurrogate low then .ok ([pairChar high low], after)
      else after.faultHere .loneSurrogate
  | '\\' :: _ => (c.shift 1).faultAhead .unfinishedSurrogate
  | _ => c.faultAhead .unfinishedSurrogate

/-- Reads what follows `\u`. -/
def readCodeUnit (c : Cursor) : Reading (List Char) :=
  match c.readHex with
  | .error e => .error e
  | .ok (n, after) =>
    if isTrailingSurrogate n then after.faultHere .loneSurrogate
    else if isLeadingSurrogate n then readTrailing n after
    else .ok ([Char.ofNat n], after)

def readEscape (c : Cursor) : Reading (List Char) :=
  match c.rest with
  | [] => c.faultHere .endInString
  | letter :: _ =>
    if letter = 'u' then readCodeUnit (c.shift 1)
    else
      match escapeLetter? letter with
      | some x => .ok ([x], c.shift 1)
      | none => c.faultAhead .invalidEscape

theorem size_readHex {c after : Cursor} {n : Nat} (h : c.readHex = .ok (n, after)) :
    after.size ≤ c.size := by
  unfold readHex at h
  split at h
  · cases h; simp
  · split at h <;> cases h

theorem size_readTrailing {high : Nat} {c after : Cursor} {s : List Char}
    (h : c.readTrailing high = .ok (s, after)) : after.size ≤ c.size := by
  unfold readTrailing at h
  split at h <;> try cases h
  split at h
  · cases h
  · next heq =>
    split at h
    · cases h
      exact Nat.le_trans (size_readHex heq) (by simp)
    · cases h

theorem size_readCodeUnit {c after : Cursor} {s : List Char}
    (h : c.readCodeUnit = .ok (s, after)) : after.size ≤ c.size := by
  unfold readCodeUnit at h
  split at h
  · cases h
  · next heq =>
    have hle := size_readHex heq
    split at h
    · cases h
    · split at h
      · exact Nat.le_trans (size_readTrailing h) hle
      · cases h; exact hle

theorem size_readEscape {c after : Cursor} {s : List Char}
    (h : c.readEscape = .ok (s, after)) : after.size ≤ c.size := by
  unfold readEscape at h
  split at h
  · cases h
  · split at h
    · exact Nat.le_trans (size_readCodeUnit h) (by simp)
    · split at h
      · cases h; simp
      · cases h

/-- Reads the rest of a string whose opening quote has been read. -/
def readString (c : Cursor) : Reading (List Char) :=
  match hrest : c.rest with
  | [] => c.faultHere .endInString
  | x :: _ =>
    if x = '"' then .ok ([], c.shift 1)
    else if x = '\\' then
      match h : (c.shift 1).readEscape with
      | .error e => .error e
      | .ok (chars, after) =>
        have : after.size < c.size :=
          Nat.lt_of_le_of_lt (size_readEscape h) (size_shift_one_lt hrest)
        match readString after with
        | .error e => .error e
        | .ok (s, c') => .ok (chars ++ s, c')
    else if x.toNat < 32 then (c.shift 1).faultHere .controlCharacter
    else
      have : (c.shift 1).size < c.size := size_shift_one_lt hrest
      match readString (c.shift 1) with
      | .error e => .error e
      | .ok (s, c') => .ok (x :: s, c')
termination_by c.size

def skipEscape (c : Cursor) : Except PayloadError Cursor :=
  match c.rest with
  | [] => c.faultHere .endInString
  | letter :: _ =>
    if letter = 'u' then (c.shift 1).readHex.map (·.2)
    else
      match escapeLetter? letter with
      | some _ => .ok (c.shift 1)
      | none => c.faultAhead .invalidEscape

theorem size_skipEscape {c after : Cursor} (h : c.skipEscape = .ok after) :
    after.size ≤ c.size := by
  unfold skipEscape at h
  split at h
  · cases h
  · split at h
    · cases hx : (c.shift 1).readHex with
      | error e => rw [hx] at h; cases h
      | ok r =>
        rw [hx] at h
        cases h
        exact Nat.le_trans (size_readHex (n := r.1) hx) (by simp)
    · split at h
      · cases h; simp
      · cases h

/-- Passes over the rest of a string whose opening quote has been read. -/
def skipString (c : Cursor) : Except PayloadError Cursor :=
  match hrest : c.rest with
  | [] => c.faultHere .endInString
  | x :: _ =>
    if x = '"' then .ok (c.shift 1)
    else if x = '\\' then
      match h : (c.shift 1).skipEscape with
      | .error e => .error e
      | .ok after =>
        have : after.size < c.size :=
          Nat.lt_of_le_of_lt (size_skipEscape h) (size_shift_one_lt hrest)
        skipString after
    else if x.toNat < 32 then c.faultHere .controlCharacter
    else
      have : (c.shift 1).size < c.size := size_shift_one_lt hrest
      skipString (c.shift 1)
termination_by c.size

theorem size_skipString {c after : Cursor} (h : c.skipString = .ok after) :
    after.size ≤ c.size := by
  fun_induction skipString c with
  | case1 => cases h
  | case2 => cases h; simp
  | case3 => cases h
  | case4 =>
    rename_i hlt ih
    exact Nat.le_trans (ih h) (Nat.le_of_lt hlt)
  | case5 => cases h
  | case6 =>
    rename_i hlt ih
    exact Nat.le_trans (ih h) (Nat.le_of_lt hlt)

theorem size_readString {c after : Cursor} {s : List Char} (h : c.readString = .ok (s, after)) :
    after.size ≤ c.size := by
  fun_induction readString c generalizing s after with
  | case1 => cases h
  | case2 => cases h; simp
  | case3 => cases h
  | case4 => cases h
  | case5 =>
    rename_i ih
    cases h
    exact Nat.le_trans (ih (by assumption)) (Nat.le_of_lt (by assumption))
  | case6 => cases h
  | case7 => cases h
  | case8 =>
    rename_i ih
    cases h
    exact Nat.le_trans (ih (by assumption)) (Nat.le_of_lt (by assumption))

/-- Reads the letters that remain of a literal. -/
def readLetters (c : Cursor) : List Char → Except PayloadError Cursor
  | [] => .ok c
  | letter :: letters =>
    match c.rest with
    | [] => c.faultHere .endInValue
    | x :: _ =>
      if x = letter then readLetters (c.shift 1) letters
      else c.faultAhead .expectedLiteral

theorem size_readLetters {letters : List Char} {c after : Cursor}
    (h : c.readLetters letters = .ok after) : after.size ≤ c.size := by
  induction letters generalizing c with
  | nil => cases h; exact Nat.le_refl _
  | cons letter letters ih =>
    unfold readLetters at h
    split at h
    · cases h
    · split at h
      · exact Nat.le_trans (ih h) (by simp)
      · cases h

end Cursor

end RaceSkeletons
