import RaceSkeletons.Analyzer.ValueSkipper

/-!
# Reading the verdict document

The reader accepts an object with the known fields in any order and any
other fields between them, and also a list of the field values in their
order. A field that is missing has its default value; a field that occurs
twice is an error.
-/

namespace RaceSkeletons

/-- The fields of a verdict document, in their order. -/
inductive PayloadField where
  | file
  | hasWrite
  | lineNumber
  | lineContent
  | error
  deriving Repr, DecidableEq

namespace PayloadField

/-- All fields in their order. -/
def all : List PayloadField := [.file, .hasWrite, .lineNumber, .lineContent, .error]

def key : PayloadField → String
  | .file => "file"
  | .hasWrite => "has_write"
  | .lineNumber => "line_number"
  | .lineContent => "line_content"
  | .error => "error"

def ofKey? (key : String) : Option PayloadField :=
  all.find? fun field => field.key = key

end PayloadField

/-- The fields that have been read so far. A field that may be null and is
null has been read all the same. -/
structure PayloadDraft where
  file : Option String := none
  hasWrite : Option Bool := none
  lineNumber : Option (Option Nat) := none
  lineContent : Option (Option String) := none
  error : Option (Option String) := none
  deriving Repr, DecidableEq

namespace PayloadDraft

/-- Whether a field has been read. -/
def has (d : PayloadDraft) : PayloadField → Bool
  | .file => d.file.isSome
  | .hasWrite => d.hasWrite.isSome
  | .lineNumber => d.lineNumber.isSome
  | .lineContent => d.lineContent.isSome
  | .error => d.error.isSome

/-- The document, with defaults for the fields that are missing. -/
def finish (d : PayloadDraft) : Payload :=
  { file := d.file.getD ""
    hasWrite := d.hasWrite.getD false
    lineNumber := d.lineNumber.getD none
    lineContent := d.lineContent.getD none
    error := d.error.getD none }

end PayloadDraft

namespace Cursor

/-- The error when the value at the cursor is not of the expected kind. A
value that is broken in itself is reported for that. -/
def mismatch (c : Cursor) (expected : String) : PayloadError :=
  match c.rest with
  | [] => ⟨.endInValue, c.position⟩
  | x :: _ =>
    if x = 'n' then literal (c.shift 1) ['u', 'l', 'l'] .null
    else if x = 't' then literal (c.shift 1) ['r', 'u', 'e'] (.boolean true)
    else if x = 'f' then literal (c.shift 1) ['a', 'l', 's', 'e'] (.boolean false)
    else if x = '-' then number ((c.shift 1).readNumber true)
    else if x.isDigit then number (c.readNumber false)
    else if x = '"' then
      match (c.shift 1).readString with
      | .error e => e
      | .ok (s, after) => ⟨.wrongType (.string (String.ofList s)) expected, after.position⟩
    else if x = '[' then ⟨.wrongType .sequence expected, c.position⟩
    else if x = '\x7b' then ⟨.wrongType .map expected, c.position⟩
    else ⟨.expectedValue, c.ahead⟩
where
  /-- The error at a literal. -/
  literal (c : Cursor) (letters : List Char) (found : FoundValue) : PayloadError :=
    match c.readLetters letters with
    | .error e => e
    | .ok after => ⟨.wrongType found expected, after.position⟩
  /-- The error at a number. -/
  number : Reading NumberToken → PayloadError
    | .error e => e
    | .ok (token, after) => ⟨.wrongType token.found expected, after.position⟩

def readText (c : Cursor) : Reading String :=
  let c := c.skipBlank
  match c.rest with
  | [] => c.faultHere .endInValue
  | '"' :: _ => (c.shift 1).readString.map fun r => (String.ofList r.1, r.2)
  | _ => .error (c.mismatch "a string")

/-- Reads `true` or `false`. -/
def readBool (c : Cursor) : Reading Bool :=
  let c := c.skipBlank
  match c.rest with
  | [] => c.faultHere .endInValue
  | 't' :: _ => ((c.shift 1).readLetters ['r', 'u', 'e']).map fun after => (true, after)
  | 'f' :: _ => ((c.shift 1).readLetters ['a', 'l', 's', 'e']).map fun after => (false, after)
  | _ => .error (c.mismatch "a boolean")

def readNatural (c : Cursor) : Reading Nat :=
  let c := c.skipBlank
  match c.rest with
  | [] => c.faultHere .endInValue
  | x :: _ =>
    if x = '-' then natural ((c.shift 1).readNumber true)
    else if x.isDigit then natural (c.readNumber false)
    else .error (c.mismatch "u64")
where
  /-- The natural number that a number token is. -/
  natural : Reading NumberToken → Reading Nat
    | .error e => .error e
    | .ok (.natural n, after) => .ok (n, after)
    | .ok (.negative n, after) =>
      after.faultHere (.wrongValue (NumberToken.negative n).found "u64")
    | .ok (token, after) => after.faultHere (.wrongType token.found "u64")

/-- Reads `null` as nothing, and anything else with the given reader. -/
def readOptional {α : Type} (read : Cursor → Reading α) (c : Cursor) : Reading (Option α) :=
  let c := c.skipBlank
  match c.rest with
  | 'n' :: _ => ((c.shift 1).readLetters ['u', 'l', 'l']).map fun after => (none, after)
  | _ => (read c).map fun r => (some r.1, r.2)

def readField (d : PayloadDraft) (field : PayloadField) (c : Cursor) : Reading PayloadDraft :=
  match field with
  | .file => c.readText.map fun r => ({ d with file := some r.1 }, r.2)
  | .hasWrite => c.readBool.map fun r => ({ d with hasWrite := some r.1 }, r.2)
  | .lineNumber =>
    (c.readOptional readNatural).map fun r => ({ d with lineNumber := some r.1 }, r.2)
  | .lineContent =>
    (c.readOptional readText).map fun r => ({ d with lineContent := some r.1 }, r.2)
  | .error => (c.readOptional readText).map fun r => ({ d with error := some r.1 }, r.2)

/-- Where a field that occurs twice is reported: behind its key, or behind the
end of the object when that comes next. -/
def duplicatePosition (c : Cursor) : TextPosition :=
  let c := c.skipBlank
  if c.rest.head? = some '\x7d' then (c.shift 1).position else c.position

/-- What stands at a place of an object where a member may follow. -/
inductive MemberPoint where
  /-- The object ends; the cursor is behind its bracket. -/
  | finished (c : Cursor)
  /-- A key starts; the cursor is behind its quote. -/
  | key (c : Cursor)

def nextMember (isFirst : Bool) (c : Cursor) : Except PayloadError MemberPoint :=
  let c := c.skipBlank
  match c.rest with
  | [] => c.faultHere .endInObject
  | x :: _ =>
    if x = '\x7d' then .ok (.finished (c.shift 1))
    else if isFirst then
      if x = '"' then .ok (.key (c.shift 1)) else c.faultAhead .keyNotString
    else if x = ',' then
      let c := (c.shift 1).skipBlank
      match c.rest with
      | [] => c.faultHere .endInValue
      | y :: _ =>
        if y = '"' then .ok (.key (c.shift 1))
        else if y = '\x7d' then c.faultAhead .trailingComma
        else c.faultAhead .keyNotString
    else c.faultAhead .expectedObjectEnd

/-- Reads a member; the cursor is behind the quote of its key. -/
def readMember (d : PayloadDraft) (c : Cursor) : Reading PayloadDraft :=
  match c.readString with
  | .error e => .error e
  | .ok (key, c) =>
    match PayloadField.ofKey? (String.ofList key) with
    | none =>
      match c.readColon with
      | .error e => .error e
      | .ok c => c.skipValue.map fun after => (d, after)
    | some field =>
      if d.has field then .error ⟨.duplicateField field.key, c.duplicatePosition⟩
      else
        match c.readColon with
        | .error e => .error e
        | .ok c => readField d field c

end Cursor

end RaceSkeletons
