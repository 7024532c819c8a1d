import RaceSkeletons.Proofs.Analyzer.Skipping
import RaceSkeletons.Analyzer.Decode
import RaceSkeletons.Proofs.Analyzer.Verdict

/-!
# Reading one field

What a reader of a field answers at a value is what the value stands for there, and
nothing where it stands for nothing (`Cursor.toOption_readField`). Every field that is
read is a value (`Cursor.exists_value_of_readField`).
-/

namespace RaceSkeletons

/-! ## How values begin -/

namespace JsonValue

/-- The token that a value begins with. -/
def firstToken : JsonValue → JsonToken
  | null => .null
  | bool value => .bool value
  | number n => .number n
  | string pieces => .string pieces
  | list _ => .opens .list
  | object _ => .opens .object

theorem tokens_eq_firstToken_cons (v : JsonValue) : ∃ rest, v.tokens = v.firstToken :: rest := by
  match v with
  | null | bool _ | number _ | string _ => exact ⟨_, by rw [tokens]; rfl⟩
  | list [] | object [] => exact ⟨_, by rw [tokens]; rfl⟩
  | list (_ :: _) => exact ⟨_, by rw [tokens]; rfl⟩
  | object ((_, _) :: _) => exact ⟨_, by rw [tokens]; rfl⟩

/-- The characters that a value begins with. -/
def Begins (x : Char) : JsonValue → Prop
  | null => x = 'n'
  | bool value => x = if value then 't' else 'f'
  | number _ => x = '-' ∨ x.isDigit = true
  | string _ => x = '"'
  | list _ => x = '['
  | object _ => x = '\x7b'

theorem firstToken_text (v : JsonValue) :
    ∃ x rest, v.firstToken.text = x :: rest ∧ v.Begins x := by
  cases v with
  | number n => exact n.text_eq_cons
  | bool value => cases value <;> exact ⟨_, _, rfl, rfl⟩
  | _ => exact ⟨_, _, rfl, rfl⟩

variable {v : JsonValue} {x : Char}

theorem eq_of_begins_quote (h : v.Begins '"') : ∃ pieces, v = string pieces := by
  cases v with
  | string pieces => exact ⟨pieces, rfl⟩
  | bool value => cases value <;> simp [Begins] at h
  | _ => simp [Begins] at h

theorem eq_of_begins_n (h : v.Begins 'n') : v = null := by
  cases v with
  | null => rfl
  | bool value => cases value <;> simp [Begins] at h
  | _ => simp [Begins] at h

theorem eq_of_begins_t (h : v.Begins 't') : v = bool true := by
  cases v with
  | bool value => cases value with
    | true => rfl
    | false => simp [Begins] at h
  | _ => simp [Begins] at h

theorem eq_of_begins_f (h : v.Begins 'f') : v = bool false := by
  cases v with
  | bool value => cases value with
    | true => simp [Begins] at h
    | false => rfl
  | _ => simp [Begins] at h

theorem eq_of_begins_number (h : v.Begins x) (hx : x = '-' ∨ x.isDigit = true) :
    ∃ n, v = number n := by
  cases v with
  | number n => exact ⟨n, rfl⟩
  | bool value => cases value <;> obtain rfl := h <;> simp at hx
  | _ => obtain rfl := h; simp at hx

end JsonValue

namespace Cursor

variable {c after : Cursor} {x : Char} {rest : List Char} {v : JsonValue}

/-- At a value. -/
theorem Reads.begins (h : c.Reads v.tokens after) : ∃ x rest, c.skipBlank.rest = x :: rest ∧
    v.Begins x := by
  obtain ⟨tokens, htokens⟩ := v.tokens_eq_firstToken_cons
  obtain ⟨x, text, htext, hx⟩ := v.firstToken_text
  obtain ⟨rest, hrest⟩ := (htokens ▸ h).head_eq
  exact ⟨x, text ++ rest, by rw [hrest, htext, List.cons_append], hx⟩

/-! ## Texts and truth values -/

theorem readText_quote (hrest : c.skipBlank.rest = '"' :: rest) :
    c.readText = (c.skipBlank.shift 1).readString.map fun r => (String.ofList r.1, r.2) := by
  simp only [readText, hrest]

theorem readText_other (hrest : c.skipBlank.rest = x :: rest) (hx : x ≠ '"') :
    c.readText.toOption = none := by
  simp only [readText, hrest]
  split
  · next h => cases h
  · next h => exact absurd (List.cons.inj h).1 hx
  · rfl

theorem toOption_readText (h : c.Reads v.tokens after) :
    c.readText.toOption = v.asText.map fun s => (s, after) := by
  obtain ⟨x, rest, hrest, hx⟩ := h.begins
  by_cases hquote : x = '"'
  · subst hquote
    obtain ⟨pieces, rfl⟩ := v.eq_of_begins_quote hx
    rw [JsonValue.tokens, reads_singleton_iff] at h
    obtain ⟨-, hmore⟩ := passes_cons_iff.mp h
    rw [readText_quote hrest, toOption_map, toOption_readString hmore, JsonValue.asText,
      Option.map_map, Option.map_map]
    rfl
  · rw [readText_other hrest hquote]
    cases v with
    | string pieces => exact absurd hx hquote
    | _ => rfl

theorem readBool_other (hrest : c.skipBlank.rest = x :: rest) (ht : x ≠ 't') (hf : x ≠ 'f') :
    c.readBool.toOption = none := by
  simp only [readBool, hrest]
  split
  · next h => cases h
  · next h => exact absurd (List.cons.inj h).1 ht
  · next h => exact absurd (List.cons.inj h).1 hf
  · rfl

theorem toOption_readBool (h : c.Reads v.tokens after) :
    c.readBool.toOption = v.asBool.map fun b => (b, after) := by
  obtain ⟨x, rest, hrest, hx⟩ := h.begins
  by_cases ht : x = 't'
  · subst ht
    obtain rfl := v.eq_of_begins_t hx
    rw [JsonValue.tokens, reads_singleton_iff] at h
    obtain ⟨-, hmore⟩ := passes_cons_iff.mp h
    simp only [readBool, hrest, readLetters_eq_ok_iff.mpr hmore]
    rfl
  · by_cases hf : x = 'f'
    · subst hf
      obtain rfl := v.eq_of_begins_f hx
      rw [JsonValue.tokens, reads_singleton_iff] at h
      obtain ⟨-, hmore⟩ := passes_cons_iff.mp h
      simp only [readBool, hrest, readLetters_eq_ok_iff.mpr hmore]
      rfl
    · rw [readBool_other hrest ht hf]
      cases v with
      | bool value => cases value with
        | true => exact absurd hx ht
        | false => exact absurd hx hf
      | _ => rfl

/-! ## Line numbers -/

theorem readNatural_other (hrest : c.skipBlank.rest = x :: rest) (hsign : x ≠ '-')
    (hdigit : x.isDigit = false) : c.readNatural.toOption = none := by
  simp only [readNatural, hrest, if_neg hsign, hdigit]
  rfl

theorem toOption_readNatural (h : c.Reads v.tokens after) (hend : after.EndsNumber) :
    c.readNatural.toOption = v.asNatural.map fun n => (n, after) := by
  obtain ⟨x, rest, hrest, hx⟩ := h.begins
  by_cases hnumber : x = '-' ∨ x.isDigit = true
  · obtain ⟨n, rfl⟩ := v.eq_of_begins_number hx hnumber
    rw [JsonValue.tokens, reads_singleton_iff, JsonToken.text] at h
    cases hsign : n.isNegative with
    | true =>
        rw [NumberLiteral.text_of_isNegative hsign] at h
        obtain ⟨⟨rest', hrest'⟩, -⟩ := passes_cons_iff.mp h
        have hnone : n.natural? = none := by
          simp [NumberLiteral.natural?, NumberLiteral.isNatural, hsign]
        simp only [readNatural, hrest', if_true, natural_readNumber_true, JsonValue.asNatural,
          hnone]
        rfl
    | false =>
        rw [NumberLiteral.text_of_not_isNegative hsign] at h
        obtain ⟨y, rest', htext, hy⟩ := n.unsigned_eq_cons
        have hrest' := h.rest_eq
        rw [htext, List.cons_append] at hrest'
        have hminus : y ≠ '-' := by rintro rfl; cases hy
        simp only [readNatural, hrest', if_neg hminus, hy, if_true, JsonValue.asNatural]
        exact toOption_natural_readNumber hsign h hend
  · obtain ⟨hsign, hdigit⟩ := not_or.mp hnumber
    rw [readNatural_other hrest hsign (Bool.eq_false_iff.mpr hdigit)]
    cases v with
    | number n => exact absurd hx hnumber
    | _ => rfl

/-! ## Fields that may be null -/

theorem readOptional_other {α : Type} {read : Cursor → Reading α}
    (hrest : c.skipBlank.rest = x :: rest) (hx : x ≠ 'n') :
    c.readOptional read = (read c.skipBlank).map fun r => (some r.1, r.2) := by
  simp only [readOptional, hrest]
  split
  · next h => exact absurd (List.cons.inj h).1 hx
  · rfl

theorem toOption_readOptional {α : Type} {read : Cursor → Reading α} {as : JsonValue → Option α}
    (h : c.Reads v.tokens after)
    (hread : (read c.skipBlank).toOption = (as v).map fun a => (a, after)) :
    (c.readOptional read).toOption = (v.asOptional as).map fun a => (a, after) := by
  obtain ⟨x, rest, hrest, hx⟩ := h.begins
  by_cases hn : x = 'n'
  · subst hn
    obtain rfl := v.eq_of_begins_n hx
    rw [JsonValue.tokens, reads_singleton_iff] at h
    obtain ⟨-, hmore⟩ := passes_cons_iff.mp h
    simp only [readOptional, hrest, readLetters_eq_ok_iff.mpr hmore]
    rfl
  · rw [readOptional_other hrest hn, toOption_map, hread]
    cases v with
    | null => exact absurd hx hn
    | _ => simp only [JsonValue.asOptional, Option.map_map, Function.comp_def]

theorem reads_value_skipBlank_iff :
    c.skipBlank.Reads v.tokens after ↔ c.Reads v.tokens after := by
  obtain ⟨rest, htokens⟩ := v.tokens_eq_firstToken_cons
  rw [htokens, reads_skipBlank_iff]

/-- What is read for a field is what the value stands for there. -/
theorem toOption_readField (d : PayloadDraft) (field : PayloadField) (h : c.Reads v.tokens after)
    (hend : after.EndsNumber) :
    (readField d field c).toOption = (d.with? v field).map fun d => (d, after) := by
  have hskip := reads_value_skipBlank_iff.mpr h
  cases field <;> simp only [readField, toOption_map, PayloadDraft.with?]
  · rw [toOption_readText h, Option.map_map, Option.map_map]; rfl
  · rw [toOption_readBool h, Option.map_map, Option.map_map]; rfl
  · rw [toOption_readOptional h (toOption_readNatural hskip hend), Option.map_map, Option.map_map]
    rfl
  · rw [toOption_readOptional h (toOption_readText hskip), Option.map_map, Option.map_map]; rfl
  · rw [toOption_readOptional h (toOption_readText hskip), Option.map_map, Option.map_map]; rfl

/-! ## What is read for a field -/

theorem exists_value_of_readText {s : String} (h : c.readText = .ok (s, after)) :
    ∃ v : JsonValue, c.Reads v.tokens after := by
  cases hrest : c.skipBlank.rest with
  | nil => simp only [readText, hrest] at h; cases h
  | cons x rest =>
      by_cases hquote : x = '"'
      · subst hquote
        rw [readText_quote hrest] at h
        cases hstring : (c.skipBlank.shift 1).readString with
        | error e => rw [hstring] at h; cases h
        | ok r =>
            rw [hstring] at h
            obtain ⟨-, rfl⟩ := Prod.mk.inj (Except.ok.inj h)
            obtain ⟨pieces, hpieces⟩ := exists_pieces_of_readString (s := r.1) hstring
            refine ⟨.string pieces, ?_⟩
            rw [JsonValue.tokens]
            exact reads_singleton (.cons hrest hpieces)
      · have hnone := readText_other hrest hquote
        rw [h] at hnone
        cases hnone

theorem reads_of_map_readLetters {α : Type} {a b : α} {letters : List Char}
    (h : (c.readLetters letters).map (fun after => (a, after)) = .ok (b, after)) :
    c.Passes letters after := by
  cases hletters : c.readLetters letters with
  | error e => rw [hletters] at h; cases h
  | ok mid =>
      rw [hletters] at h
      obtain ⟨-, rfl⟩ := Prod.mk.inj (Except.ok.inj h)
      exact readLetters_eq_ok_iff.mp hletters

theorem exists_value_of_readBool {b : Bool} (h : c.readBool = .ok (b, after)) :
    ∃ v : JsonValue, c.Reads v.tokens after := by
  rw [readBool] at h
  split at h
  · cases h
  · next hrest =>
      refine ⟨.bool true, ?_⟩
      rw [JsonValue.tokens]
      exact reads_singleton (.cons hrest (reads_of_map_readLetters h))
  · next hrest =>
      refine ⟨.bool false, ?_⟩
      rw [JsonValue.tokens]
      exact reads_singleton (.cons hrest (reads_of_map_readLetters h))
  · cases h

theorem exists_value_of_readNatural {n : Nat} (h : c.readNatural = .ok (n, after)) :
    ∃ v : JsonValue, c.Reads v.tokens after := by
  rw [readNatural] at h
  split at h
  · cases h
  · next x rest hrest =>
      split at h
      · have hnone := natural_readNumber_true (c.skipBlank.shift 1)
        rw [h] at hnone
        cases hnone
      · split at h
        · obtain ⟨literal, hsign, -, hliteral⟩ := exists_natural_of_readNumber h
          refine ⟨.number literal, ?_⟩
          rw [JsonValue.tokens, reads_singleton_iff, JsonToken.text,
            NumberLiteral.text_of_not_isNegative hsign]
          exact hliteral
        · cases h

theorem exists_value_of_readOptional {α : Type} {read : Cursor → Reading α} {a : Option α}
    (hread : ∀ {c : Cursor} {a : α}, read c = .ok (a, after) →
      ∃ v : JsonValue, c.Reads v.tokens after)
    (h : c.readOptional read = .ok (a, after)) : ∃ v : JsonValue, c.Reads v.tokens after := by
  rw [readOptional] at h
  split at h
  · next hrest =>
      refine ⟨.null, ?_⟩
      rw [JsonValue.tokens]
      exact reads_singleton (.cons hrest (reads_of_map_readLetters h))
  · cases hr : read c.skipBlank with
    | error e => rw [hr] at h; cases h
    | ok r =>
        rw [hr] at h
        obtain ⟨-, rfl⟩ := Prod.mk.inj (Except.ok.inj h)
        obtain ⟨v, hv⟩ := hread (a := r.1) hr
        exact ⟨v, reads_value_skipBlank_iff.mp hv⟩

theorem exists_value_of_readField {d d' : PayloadDraft} {field : PayloadField}
    (h : readField d field c = .ok (d', after)) : ∃ v : JsonValue, c.Reads v.tokens after := by
  cases field <;> obtain ⟨a, ha⟩ := size_map_field h
  · exact exists_value_of_readText ha
  · exact exists_value_of_readBool ha
  · exact exists_value_of_readOptional exists_value_of_readNatural ha
  · exact exists_value_of_readOptional exists_value_of_readText ha
  · exact exists_value_of_readOptional exists_value_of_readText ha

end Cursor

end RaceSkeletons
