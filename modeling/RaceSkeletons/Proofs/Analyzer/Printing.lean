import RaceSkeletons.Analyzer.PayloadPrinter
import RaceSkeletons.Proofs.Analyzer.Decoding
import RaceSkeletons.Proofs.Render.Json

/-!
# A printed payload is decoded again

The fields that are written account for the payload (`Payload.accounts_written`): what is
left out has its default, and an empty text is written, so it is not taken for a missing
one. So decoding undoes printing, in every layout.
-/

namespace RaceSkeletons

theorem PayloadField.ofKey?_key (field : PayloadField) : ofKey? field.key = some field := by
  cases field <;> decide

theorem Document.jsonMembers_eq_map (members : List (String × Document)) :
    Document.jsonMembers members = members.map fun m => (StringPiece.ofText m.1, m.2.json) := by
  induction members with
  | nil => rw [Document.jsonMembers, List.map_nil]
  | cons m members ih => rw [Document.jsonMembers, List.map_cons, ih]

namespace JsonMember

variable {key : String} {v : JsonValue}

theorem key?_ofText : JsonMember.key? (StringPiece.ofText key, v) = some key := by
  rw [key?, StringPiece.decode_ofText, Option.map_some, String.ofList_toList]

theorem fieldValue?_ofText (field : PayloadField) :
    JsonMember.fieldValue? (StringPiece.ofText field.key, v) = some (field, v) := by
  rw [fieldValue?, key?_ofText, Option.bind_some, field.ofKey?_key, Option.map_some]

end JsonMember

/-! ## What is written for a field -/

theorem valuesOf_append (field : PayloadField) (given more : List FieldValue) :
    valuesOf field (given ++ more) = valuesOf field given ++ valuesOf field more :=
  List.filterMap_append

theorem valuesOf_option {α : Type} (field other : PayloadField) (x : Option α)
    (v : α → JsonValue) :
    valuesOf field (x.map fun a => (other, v a)).toList =
      if other = field then (x.map v).toList else [] := by
  cases x with
  | none => simp [valuesOf]
  | some a => by_cases h : other = field <;> simp [valuesOf, h]

namespace Payload

variable {p : Payload}

/-- The values that are given to the fields of a written payload. -/
def given (p : Payload) : List FieldValue :=
  p.written.map fun field => (field.1, field.2.json)

/-- Every field that is written is given one value. -/
theorem valuesOf_given (p : Payload) (field : PayloadField) : valuesOf field p.given =
    match field with
    | .file => [(Document.text p.file).json]
    | .hasWrite => [(Document.bool p.hasWrite).json]
    | .lineNumber => (p.lineNumber.map fun n => (Document.number n).json).toList
    | .lineContent => (p.lineContent.map fun line => (Document.text line).json).toList
    | .error => (p.error.map fun message => (Document.text message).json).toList := by
  have hgiven : p.given = [(.file, (Document.text p.file).json),
      (.hasWrite, (Document.bool p.hasWrite).json)] ++
      (p.lineNumber.map fun n => (.lineNumber, (Document.number n).json)).toList ++
      (p.lineContent.map fun line => (.lineContent, (Document.text line).json)).toList ++
      (p.error.map fun message => (.error, (Document.text message).json)).toList := by
    simp [given, written, Option.toList_map, Function.comp_def]
  rw [hgiven, valuesOf_append, valuesOf_append, valuesOf_append, valuesOf_option, valuesOf_option,
    valuesOf_option]
  cases field <;> simp [valuesOf]

theorem asText_json (s : String) : (Document.text s).json.asText = some s := by
  rw [Document.json, JsonValue.asText, StringPiece.decode_ofText, Option.map_some,
    String.ofList_toList]

theorem asNatural_json {n : Nat} (h : n ≤ maxLineNumber) :
    (Document.number n).json.asNatural = some n := by
  rw [Document.json, JsonValue.asNatural, NumberLiteral.natural?_ofNat h]

theorem asOptional_json {α : Type} {as : JsonValue → Option α} {d : Document} {a : α}
    (h : as d.json = some a) : d.json.asOptional as = some (some a) := by
  have hnull : d.json ≠ .null := by cases d <;> simp [Document.json]
  unfold JsonValue.asOptional
  split
  · next hjson => exact absurd hjson hnull
  · rw [h, Option.map_some]

/-- What is written accounts for the payload. -/
theorem accounts_given (h : ∀ n ∈ p.lineNumber, n ≤ maxLineNumber) : p.Accounts p.given := by
  intro field
  rw [valuesOf_given]
  cases field with
  | file => exact asText_json p.file
  | hasWrite =>
      simp only [Holds, Document.json]
      rfl
  | lineNumber =>
      cases hvalue : p.lineNumber with
      | none => exact hvalue
      | some n =>
          have hn := asOptional_json (asNatural_json (h n hvalue))
          exact hn.trans (congrArg some hvalue.symm)
  | lineContent =>
      cases hvalue : p.lineContent with
      | none => exact hvalue
      | some line => exact (asOptional_json (asText_json line)).trans (congrArg some hvalue.symm)
  | error =>
      cases hvalue : p.error with
      | none => exact hvalue
      | some message =>
          exact (asOptional_json (asText_json message)).trans (congrArg some hvalue.symm)

/-- The members of the written object. -/
theorem jsonMembers_written (p : Payload) :
    Document.jsonMembers (p.written.map fun field => (field.1.key, field.2)) =
      p.given.map fun g => (StringPiece.ofText g.1.key, g.2) := by
  rw [Document.jsonMembers_eq_map, given, List.map_map, List.map_map]
  rfl

theorem isOfObject_given (h : ∀ n ∈ p.lineNumber, n ≤ maxLineNumber) :
    p.IsOfObject (p.given.map fun g => (StringPiece.ofText g.1.key, g.2)) := by
  constructor
  · intro m hm
    obtain ⟨g, -, rfl⟩ := List.mem_map.mp hm
    rw [JsonMember.key?_ofText]
    nofun
  · have hfields : (p.given.map fun g => (StringPiece.ofText g.1.key, g.2)).filterMap
        JsonMember.fieldValue? = p.given := by
      rw [List.filterMap_map]
      simp only [Function.comp_def, JsonMember.fieldValue?_ofText]
      exact List.filterMap_some
    rw [hfields]
    exact accounts_given h

/-! ## Decoding what is printed -/

/-- A written object begins and ends with its brackets. -/
theorem brackets_value (layout : Json.Layout) (members : List (String × Document)) :
    (Json.value layout 0 (.record members)).toList.head? = some '\x7b' ∧
      (Json.value layout 0 (.record members)).toList.getLast? = some '\x7d' := by
  cases members with
  | nil => rw [Json.value]; decide
  | cons m members =>
      rw [Json.value]
      simp only [String.toList_append, List.head?_append, List.getLast?_append]
      exact ⟨rfl, rfl⟩

/-- The text of a record spells it, whatever white space is around. -/
theorem isSpelledBy_record {layout : Json.Layout} (hlayout : layout.IsBlank)
    (members : List (String × Document)) (before after : String)
    (hbefore : Text.allBlank before = true) (hafter : Text.allBlank after = true) :
    (JsonValue.object (Document.jsonMembers members)).IsSpelledBy
      (Text.trim (before ++ Json.value layout 0 (.record members) ++ after).toList) := by
  obtain ⟨hfirst, hlast⟩ := brackets_value layout members
  rw [String.toList_append, String.toList_append,
    Text.trim_around (List.all_eq_true.mp hbefore) (List.all_eq_true.mp hafter)]
  · have hspells := Json.spells_value hlayout 0 (.record members)
    rw [Document.json] at hspells
    exact ⟨_, [], hspells, nofun, (List.append_nil _).symm⟩
  · intro hnil
    rw [hnil] at hfirst
    cases hfirst
  · rw [hfirst]
    rintro _ ⟨⟩
    decide
  · rw [hlast]
    rintro _ ⟨⟩
    decide

/-- A payload is decoded from its text in every layout. -/
theorem parse_value {layout : Json.Layout} (hlayout : layout.IsBlank)
    (h : ∀ n ∈ p.lineNumber, n ≤ maxLineNumber) {before after : String}
    (hbefore : Text.allBlank before = true) (hafter : Text.allBlank after = true) :
    parse (before ++ Json.value layout 0 p.document ++ after) = .ok p := by
  refine (parse_object_iff (isSpelledBy_record hlayout _ _ _ hbefore hafter)).mpr ?_
  rw [jsonMembers_written]
  exact isOfObject_given h

/-- Decoding undoes printing: every payload with a line number that can be held is what
its text stands for, without blanks or over lines, whatever white space is around. -/
theorem parse_print (p : Payload) (h : ∀ n ∈ p.lineNumber, n ≤ maxLineNumber)
    (before after : String) (hbefore : Text.allBlank before = true)
    (hafter : Text.allBlank after = true) :
    parse (before ++ p.print ++ after) = .ok p ∧
      parse (before ++ Json.render p.document ++ after) = .ok p :=
  ⟨parse_value Json.isBlank_compact h hbefore hafter,
    parse_value Json.isBlank_lines h hbefore hafter⟩

/-- A payload with a quote, a control character, the greatest line number and an empty
line, between an ideographic space and a line break. -/
theorem parse_print_sample :
    parse ("\u3000" ++ print ⟨"a\"\x01.go", true, some maxLineNumber, some "", none⟩ ++ "\n") =
        .ok ⟨"a\"\x01.go", true, some maxLineNumber, some "", none⟩ ∧
      parse ("\u3000" ++
          Json.render (document ⟨"a\"\x01.go", true, some maxLineNumber, some "", none⟩) ++ "\n") =
        .ok ⟨"a\"\x01.go", true, some maxLineNumber, some "", none⟩ :=
  parse_print _ (by rintro _ ⟨⟩; exact Nat.le_refl _) _ _ (by decide) (by decide)

end Payload

end RaceSkeletons
