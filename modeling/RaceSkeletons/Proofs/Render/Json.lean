import RaceSkeletons.Proofs.Analyzer.JsonText
import RaceSkeletons.Render.Json

/-!
# Rendered documents are JSON

Every document is a JSON value (`Document.json`), and its text spells that value in every
layout that puts blanks only between the tokens (`Json.spells_value`). The strings in it
stand for the texts of the document (`StringPiece.decode_ofText`) and the numbers for its
numbers (`NumberLiteral.magnitude_ofNat`).
-/

namespace RaceSkeletons

/-! ## Strings -/

theorem fourHex?_control {n : Nat} (h : n < 32) :
    Cursor.fourHex? ['0', '0', Json.hexDigit (n / 16), Json.hexDigit (n % 16)] = some n := by
  have hall : ∀ n : Fin 32, Cursor.fourHex?
      ['0', '0', Json.hexDigit (n.val / 16), Json.hexDigit (n.val % 16)] = some n.val := by decide
  exact hall ⟨n, h⟩

namespace StringPiece

/-- The piece that a character is written as. -/
def ofChar (c : Char) : StringPiece :=
  if hquote : c = '"' then .escape '"' '"' rfl
  else if hescape : c = '\\' then .escape '\\' '\\' rfl
  else if c = '\n' then .escape 'n' '\n' rfl
  else if c = '\r' then .escape 'r' '\r' rfl
  else if c = '\t' then .escape 't' '\t' rfl
  else if c = '\x08' then .escape 'b' '\x08' rfl
  else if c = '\x0c' then .escape 'f' '\x0c' rfl
  else if hcontrol : c.toNat < 32 then
    .unit ⟨['0', '0', Json.hexDigit (c.toNat / 16), Json.hexDigit (c.toNat % 16)], c.toNat, rfl,
      fourHex?_control hcontrol⟩
  else .plain c hquote hescape (Nat.not_lt.mp hcontrol)

/-- The pieces that a text is written as. -/
def ofText (s : String) : List StringPiece :=
  s.toList.map ofChar

theorem text_ofChar (c : Char) : (ofChar c).text = Json.escapeChar c := by
  unfold ofChar Json.escapeChar
  repeat' split
  all_goals rfl

theorem quoted_ofText (s : String) : quoted (ofText s) = (Json.string s).toList := by
  rw [quoted, ofText, List.flatMap_map, Json.string, String.toList_ofList]
  simp only [text_ofChar]

theorem decode_unit_control {c : Char} (u : CodeUnit) (hvalue : u.value = c.toNat)
    (h : c.toNat < 32) (pieces : List StringPiece) :
    decode (.unit u :: pieces) = (decode pieces).map (c :: ·) := by
  have htrailing : Cursor.isTrailingSurrogate u.value = false := by
    simp only [Cursor.isTrailingSurrogate, hvalue, Bool.and_eq_false_iff, decide_eq_false_iff_not]
    omega
  have hleading : Cursor.isLeadingSurrogate u.value = false := by
    simp only [Cursor.isLeadingSurrogate, hvalue, Bool.and_eq_false_iff, decide_eq_false_iff_not]
    omega
  rw [decode.eq_def]
  simp only [htrailing, hleading, Bool.false_eq_true, if_false]
  rw [hvalue, Char.ofNat_toNat]

/-- A character stands for itself, whatever comes behind it. -/
theorem decode_ofChar_cons (c : Char) (pieces : List StringPiece) :
    decode (ofChar c :: pieces) = (decode pieces).map (c :: ·) := by
  unfold ofChar
  split
  · next h => subst h; rfl
  split
  · next h => subst h; rfl
  split
  · next h => subst h; rfl
  split
  · next h => subst h; rfl
  split
  · next h => subst h; rfl
  split
  · next h => subst h; rfl
  split
  · next h => subst h; rfl
  split
  · next h => exact decode_unit_control _ rfl h pieces
  · rfl

theorem decode_ofText (s : String) : decode (ofText s) = some s.toList := by
  unfold ofText
  induction s.toList with
  | nil => rfl
  | cons c text ih => rw [List.map_cons, decode_ofChar_cons, ih, Option.map_some]

end StringPiece

/-! ## Numbers -/

theorem head?_toDigits {n : Nat} (h : (Nat.toDigits 10 n).head? = some '0') : n = 0 := by
  induction n using Nat.strongRecOn with
  | ind n ih =>
      rw [Nat.toDigits_eq_if (by decide)] at h
      split at h
      · exact Nat.digitChar_eq_zero.mp (Option.some.inj h)
      · next hlarge =>
          have hne : Nat.toDigits 10 (n / 10) ≠ [] :=
            List.ne_nil_of_length_pos Nat.length_toDigits_pos
          rw [List.head?_append, Option.or_eq_some_iff] at h
          obtain hhead | ⟨hnone, -⟩ := h
          · have := ih (n / 10) (by omega) hhead
            omega
          · exact absurd (List.head?_eq_none_iff.mp hnone) hne

namespace NumberLiteral

/-- A natural number as it is written. -/
def ofNat (n : Nat) : NumberLiteral where
  isNegative := false
  integer := ⟨Nat.toDigits 10 n, List.ne_nil_of_length_pos Nat.length_toDigits_pos,
    fun _ hc => Nat.isDigit_of_mem_toDigits (by decide) (by decide) hc⟩
  noLeadingZero h := by
    obtain rfl := head?_toDigits h
    rfl
  fraction := none
  exponent := none

theorem text_ofNat (n : Nat) : (ofNat n).text = (toString n).toList := by
  change (ofNat n).integer.digits ++ [] = n.repr.toList
  rw [List.append_nil, Nat.toList_repr]
  rfl

theorem magnitude_ofNat (n : Nat) : (ofNat n).magnitude = n := by
  have hstep : (fun value d => value * 10 + Cursor.digitValue d) =
      fun value d => 10 * value + (d.toNat - '0'.toNat) := by
    funext value d
    rw [Nat.mul_comm]
    rfl
  rw [magnitude, hstep, ← Nat.ofDigitChars_eq_foldl]
  exact Nat.ofDigitChars_toDigits (by decide) (by decide)

theorem natural?_ofNat {n : Nat} (h : n ≤ maxLineNumber) : (ofNat n).natural? = some n := by
  rw [natural?, magnitude_ofNat, if_pos ⟨rfl, h⟩]

end NumberLiteral

/-! ## Values -/

mutual

/-- A document as a JSON value. -/
def Document.json : Document → JsonValue
  | .bool b => .bool b
  | .number n => .number (.ofNat n)
  | .text s => .string (StringPiece.ofText s)
  | .list items => .list (Document.jsonItems items)
  | .record members => .object (Document.jsonMembers members)

def Document.jsonItems : List Document → List JsonValue
  | [] => []
  | item :: items => item.json :: Document.jsonItems items

def Document.jsonMembers : List (String × Document) → List (List StringPiece × JsonValue)
  | [] => []
  | (key, member) :: members =>
      (StringPiece.ofText key, member.json) :: Document.jsonMembers members

end

/-! ## Texts -/

namespace Spells

variable {token : JsonToken} {tokens : List JsonToken} {text blank : List Char}

/-- There may be blanks before a token. -/
theorem afterBlank (hblank : ∀ c ∈ blank, Cursor.isJsonBlank c = true)
    (h : Spells (token :: tokens) text) : Spells (token :: tokens) (blank ++ text) := by
  obtain _ | @⟨_, _, blank', rest, hblank', hmore⟩ := h
  rw [List.append_assoc, ← List.append_assoc blank, ← List.append_assoc]
  refine cons (fun c hc => ?_) hmore
  rcases List.mem_append.mp hc with hc | hc
  · exact hblank c hc
  · exact hblank' c hc

/-- There may be blanks before a value. -/
theorem valueAfterBlank {v : JsonValue} (hblank : ∀ c ∈ blank, Cursor.isJsonBlank c = true)
    (h : Spells v.tokens text) : Spells v.tokens (blank ++ text) := by
  obtain ⟨first, rest, htokens, -⟩ := v.tokens_eq_cons
  rw [htokens] at h ⊢
  exact h.afterBlank hblank

end Spells

namespace Json

/-- Whether a layout puts blanks only between the tokens of a document. -/
structure Layout.IsBlank (layout : Layout) : Prop where
  newline : ∀ level, ∀ c ∈ (layout.newline level).toList, Cursor.isJsonBlank c = true
  colon : ∃ blank, layout.colon.toList = ':' :: blank ∧ ∀ c ∈ blank, Cursor.isJsonBlank c = true

theorem isBlank_lines : Layout.lines.IsBlank where
  newline level c hc := by
    rw [Layout.lines, String.toList_ofList] at hc
    rcases List.mem_cons.mp hc with rfl | hc
    · decide
    · obtain ⟨-, rfl⟩ := List.mem_replicate.mp hc
      decide
  colon := ⟨[' '], by decide, List.forall_mem_singleton.mpr (by decide)⟩

theorem isBlank_compact : Layout.compact.IsBlank where
  newline level c hc := by
    rw [Layout.compact] at hc
    cases hc
  colon := ⟨[], by decide, nofun⟩

variable {layout : Layout} {tokens : List JsonToken} {text : List Char}

theorem spells_string (s : String) :
    Spells [.string (StringPiece.ofText s)] (string s).toList := by
  rw [← StringPiece.quoted_ofText]
  exact .singleton _

/-- A member of a record. -/
theorem spells_member (h : layout.IsBlank) (key : String) {v : JsonValue}
    (hv : Spells v.tokens text) :
    Spells (.string (StringPiece.ofText key) :: .colon :: v.tokens)
      ((string key).toList ++ (layout.colon.toList ++ text)) := by
  obtain ⟨blank, hcolon, hblank⟩ := h.colon
  rw [hcolon]
  exact (spells_string key).append ((Spells.singleton .colon).append (hv.valueAfterBlank hblank))

mutual

/-- The text of a document spells it. -/
theorem spells_value (h : layout.IsBlank) (level : Nat) (d : Document) :
    Spells d.json.tokens (value layout level d).toList := by
  match d with
  | .bool b =>
      rw [Document.json, JsonValue.tokens, value]
      cases b <;> exact .singleton _
  | .number n =>
      rw [Document.json, JsonValue.tokens, value, ← NumberLiteral.text_ofNat]
      exact .singleton (.number _)
  | .text s =>
      rw [Document.json, JsonValue.tokens, value]
      exact spells_string s
  | .list [] =>
      rw [Document.json, Document.jsonItems, JsonValue.tokens, value]
      exact (Spells.singleton (.opens .list)).append (.singleton (.closes .list))
  | .list (item :: items) =>
      rw [Document.json, Document.jsonItems, JsonValue.tokens, value]
      have hitem := (spells_value h (level + 1) item).valueAfterBlank (h.newline (level + 1))
      have hitems := spells_rest h (level + 1) level items
      have htext := (Spells.singleton (.opens .list)).append (hitem.append hitems)
      simpa [JsonToken.text, Container.opening] using htext
  | .record [] =>
      rw [Document.json, Document.jsonMembers, JsonValue.tokens, value]
      exact (Spells.singleton (.opens .object)).append (.singleton (.closes .object))
  | .record ((key, member) :: members) =>
      rw [Document.json, Document.jsonMembers, JsonValue.tokens, value]
      have hmember := spells_member h key (spells_value h (level + 1) member)
      have hmembers := spells_restMembers h (level + 1) level members
      have htext := (Spells.singleton (.opens .object)).append
        ((hmember.afterBlank (h.newline (level + 1))).append hmembers)
      simpa [JsonToken.text, Container.opening] using htext

/-- The text of the items behind the first one, up to the end of the list. -/
theorem spells_rest (h : layout.IsBlank) (level outer : Nat) (items : List Document) :
    Spells (JsonValue.moreItems (Document.jsonItems items))
      ((rest layout level items).toList ++ ((layout.newline outer).toList ++ [']'])) := by
  match items with
  | [] =>
      rw [Document.jsonItems, JsonValue.moreItems, rest]
      have htext := (Spells.singleton (.closes .list)).afterBlank (h.newline outer)
      simpa [JsonToken.text, Container.closing] using htext
  | item :: items =>
      rw [Document.jsonItems, JsonValue.moreItems, rest]
      have hitem := (spells_value h level item).valueAfterBlank (h.newline level)
      have hitems := spells_rest h level outer items
      have htext := (Spells.singleton .comma).append (hitem.append hitems)
      simpa [JsonToken.text] using htext

/-- The text of the members behind the first one, up to the end of the record. -/
theorem spells_restMembers (h : layout.IsBlank) (level outer : Nat)
    (members : List (String × Document)) :
    Spells (JsonValue.moreMembers (Document.jsonMembers members))
      ((restMembers layout level members).toList ++
        ((layout.newline outer).toList ++ ['\x7d'])) := by
  match members with
  | [] =>
      rw [Document.jsonMembers, JsonValue.moreMembers, restMembers]
      have htext := (Spells.singleton (.closes .object)).afterBlank (h.newline outer)
      simpa [JsonToken.text, Container.closing] using htext
  | (key, member) :: members =>
      rw [Document.jsonMembers, JsonValue.moreMembers, restMembers]
      have hmember := spells_member h key (spells_value h level member)
      have hmembers := spells_restMembers h level outer members
      have htext := (Spells.singleton .comma).append
        ((hmember.afterBlank (h.newline level)).append hmembers)
      simpa [JsonToken.text] using htext

end

end Json

end RaceSkeletons
