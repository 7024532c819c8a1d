import RaceSkeletons.Proofs.Analyzer.Strings
import RaceSkeletons.Proofs.Analyzer.Numbers

/-!
# Passing over a value

A value is passed over as a whole and nothing behind it, whatever is nested in it
(`Cursor.skipValue_of_reads`), and what is passed over is a value
(`Cursor.exists_value_of_skipValue`). The machine keeps a stack of the containers that
are open, so the second is shown for what is still to come: tokens that close all of
them (`Closes`).
-/

namespace RaceSkeletons

variable {c mid after : Cursor} {rest : List Char} {x : Char} {token : JsonToken}
  {tokens key : List JsonToken} {kind : Container} {within : List Container} {s : Cursor.SkipState}

/-! ## How values begin and end -/

namespace JsonToken

/-- Whether a token is a value. -/
def isScalar : JsonToken → Bool
  | null | bool _ | number _ | string _ => true
  | _ => false

theorem exists_value_of_isScalar (h : token.isScalar = true) :
    ∃ v : JsonValue, v.tokens = [token] := by
  cases token with
  | null => exact ⟨.null, by rw [JsonValue.tokens]⟩
  | bool value => exact ⟨.bool value, by rw [JsonValue.tokens]⟩
  | number n => exact ⟨.number n, by rw [JsonValue.tokens]⟩
  | string pieces => exact ⟨.string pieces, by rw [JsonValue.tokens]⟩
  | _ => cases h

theorem first_of_not_isPunctuation (h : token.isPunctuation = false) :
    ∃ first rest, token.text = first :: rest ∧ first ∉ [']', '\x7d', ',', ':'] := by
  cases token with
  | opens kind => cases kind <;> exact ⟨_, _, rfl, by decide⟩
  | closes | comma | colon => cases h
  | null => exact ⟨_, _, rfl, by decide⟩
  | bool value => cases value <;> exact ⟨_, _, rfl, by decide⟩
  | string pieces => exact ⟨_, _, rfl, by decide⟩
  | number n =>
      obtain ⟨first, rest, htext, hfirst⟩ := n.text_eq_cons
      refine ⟨first, rest, htext, ?_⟩
      intro hmem
      simp only [List.mem_cons, List.not_mem_nil, or_false] at hmem
      rcases hmem with rfl | rfl | rfl | rfl <;> rcases hfirst with hsign | hdigit <;> contradiction

theorem first_of_isPunctuation (h : token.isPunctuation = true) :
    ∃ first, token.text = [first] ∧ Cursor.continuesNumber first = false := by
  cases token with
  | closes kind => cases kind <;> exact ⟨_, rfl, by decide⟩
  | comma | colon => exact ⟨_, rfl, by decide⟩
  | _ => cases h

end JsonToken

namespace JsonValue

theorem moreItems_eq_cons (items : List JsonValue) :
    ∃ first rest, moreItems items = first :: rest ∧ first.isPunctuation = true := by
  cases items with
  | nil => exact ⟨_, _, by rw [moreItems], rfl⟩
  | cons item items => exact ⟨_, _, by rw [moreItems]; rfl, rfl⟩

theorem moreMembers_eq_cons (members : List JsonMember) :
    ∃ first rest, moreMembers members = first :: rest ∧ first.isPunctuation = true := by
  cases members with
  | nil => exact ⟨_, _, by rw [moreMembers], rfl⟩
  | cons member members => exact ⟨_, _, by rw [moreMembers]; rfl, rfl⟩

end JsonValue

namespace Cursor

theorem not_continuesNumber_of_isJsonBlank (h : isJsonBlank x = true) :
    continuesNumber x = false := by
  simp only [isJsonBlank, Bool.or_eq_true, beq_iff_eq] at h
  rcases h with ((rfl | rfl) | rfl) | rfl <;> decide

/-- A number ends before blanks and before what stands between values. -/
theorem Reads.endsNumber (h : c.Reads (token :: tokens) after)
    (htoken : token.isPunctuation = true) : c.EndsNumber := by
  obtain ⟨mid, hfirst, -⟩ := reads_cons_iff.mp h
  obtain ⟨first, htext, hcontinues⟩ := JsonToken.first_of_isPunctuation htoken
  intro x hx
  rw [(passes_skip isJsonBlank c).rest_eq] at hx
  cases hblank : c.run isJsonBlank with
  | nil =>
      rw [hblank, List.nil_append] at hx
      rw [show (c.skip isJsonBlank).rest = token.text ++ mid.rest from hfirst.rest_eq, htext] at hx
      obtain rfl := Option.some.inj hx
      exact hcontinues
  | cons y blank =>
      rw [hblank] at hx
      obtain rfl := Option.some.inj hx
      exact not_continuesNumber_of_isJsonBlank
        (forall_mem_run isJsonBlank c y (hblank ▸ List.mem_cons_self))

theorem reads_skipBlank_iff :
    c.skipBlank.Reads (token :: tokens) after ↔ c.Reads (token :: tokens) after := by
  rw [reads_cons_iff, reads_cons_iff, skipBlank_skipBlank]

/-- At the first character of a token, blanks before it included. -/
theorem Reads.head_eq (h : c.Reads (token :: tokens) after) :
    ∃ rest, c.skipBlank.rest = token.text ++ rest := by
  obtain ⟨mid, hfirst, -⟩ := reads_cons_iff.mp h
  exact ⟨mid.rest, hfirst.rest_eq⟩

/-- A token of one character. -/
theorem reads_char_iff (htext : token.text = [x]) : c.Reads [token] after ↔
    (∃ rest, c.skipBlank.rest = x :: rest) ∧ c.skipBlank.shift 1 = after := by
  rw [reads_singleton_iff, htext, passes_cons_iff, passes_nil_iff]
  exact and_congr_right fun _ => eq_comm

/-! ## Tokens that a reader passes -/

theorem readLetters_eq_ok_iff {letters : List Char} :
    c.readLetters letters = .ok after ↔ c.Passes letters after := by
  induction letters generalizing c with
  | nil => rw [passes_nil_iff, readLetters, Except.ok.injEq, eq_comm]
  | cons letter letters ih =>
      rw [readLetters, passes_cons_iff]
      cases hrest : c.rest with
      | nil => exact ⟨nofun, fun h => nomatch h.1⟩
      | cons x rest =>
          by_cases hletter : x = letter
          · subst hletter
            simpa using ih
          · simp only [if_neg hletter]
            exact ⟨nofun, fun ⟨⟨_, heq⟩, _⟩ => absurd (List.cons.inj heq).1 hletter⟩

theorem readColon_eq_ok_iff : c.readColon = .ok after ↔ c.Reads [.colon] after := by
  rw [reads_char_iff rfl, readColon]
  split
  · next hrest => exact ⟨nofun, fun ⟨⟨_, heq⟩, _⟩ => by rw [hrest] at heq; cases heq⟩
  · next rest hrest =>
      exact ⟨fun h => ⟨⟨rest, hrest⟩, Except.ok.inj h⟩, fun h => by rw [h.2]⟩
  · next hrest => exact ⟨nofun, fun ⟨⟨_, heq⟩, _⟩ => absurd heq (hrest _)⟩

theorem skipKey_eq_ok_iff :
    c.skipKey = .ok after ↔ ∃ pieces, c.Reads [.string pieces, .colon] after := by
  rw [skipKey]
  constructor
  · intro h
    split at h
    · cases h
    · next rest hrest =>
        split at h
        · cases h
        · next mid hstring =>
            obtain ⟨pieces, hpieces⟩ := skipString_eq_ok_iff.mp hstring
            exact ⟨pieces, .cons (.cons hrest hpieces) (readColon_eq_ok_iff.mp h)⟩
    · cases h
  · rintro ⟨pieces, h⟩
    obtain ⟨mid, hstring, hcolon⟩ := reads_cons_iff.mp h
    obtain ⟨⟨rest, hrest⟩, hpieces⟩ := passes_cons_iff.mp hstring
    simp only [hrest, skipString_of_passes hpieces, readColon_eq_ok_iff.mpr hcolon]

end Cursor

/-- The tokens between the bracket or the comma of a container and its next value. -/
inductive KeyTokens : Container → List JsonToken → Prop where
  | list : KeyTokens .list []
  | object (pieces : List StringPiece) : KeyTokens .object [.string pieces, .colon]

namespace Cursor

theorem skipToValue_eq_ok_iff :
    c.skipToValue kind = .ok after ↔ ∃ key, KeyTokens kind key ∧ c.Reads key after := by
  cases kind with
  | list =>
      constructor
      · intro h
        obtain rfl := Except.ok.inj h
        exact ⟨[], .list, .nil⟩
      · rintro ⟨_, ⟨⟩, h⟩
        obtain rfl := reads_nil_iff.mp h
        rfl
  | object =>
      rw [skipToValue, skipKey_eq_ok_iff]
      constructor
      · rintro ⟨pieces, h⟩
        exact ⟨_, .object pieces, h⟩
      · rintro ⟨_, hkey, h⟩
        cases hkey with
        | object pieces => exact ⟨pieces, h⟩

/-! ## One step -/

theorem stepBehind_closes (h : c.Reads [.closes kind] after) :
    stepBehind kind within c = .ok (behind within after) := by
  obtain ⟨⟨rest, hrest⟩, hshift⟩ := (reads_char_iff rfl).mp h
  have hcomma : kind.closing ≠ ',' := by cases kind <;> decide
  simp only [stepBehind, hrest, if_neg hcomma, if_true, hshift]

theorem stepBehind_comma (hkey : KeyTokens kind key) (h : c.Reads (.comma :: key) after) :
    stepBehind kind within c = .ok ⟨true, kind :: within, after⟩ := by
  obtain ⟨mid, hcomma, hmore⟩ := reads_token_iff.mp h
  obtain ⟨⟨rest, hrest⟩, rfl⟩ := (reads_char_iff rfl).mp hcomma
  simp only [stepBehind, hrest, if_true, skipToValue_eq_ok_iff.mpr ⟨key, hkey, hmore⟩]

theorem of_stepBehind (h : stepBehind kind within c = .ok s) :
    (∃ mid, c.Reads [.closes kind] mid ∧ s = behind within mid) ∨
    ∃ key mid, KeyTokens kind key ∧ c.Reads (.comma :: key) mid ∧
      s = ⟨true, kind :: within, mid⟩ := by
  unfold stepBehind at h
  simp only at h
  split at h
  · cases h
  · next x rest hrest =>
      split at h
      · next hcomma =>
          split at h
          · cases h
          · next mid hto =>
              obtain ⟨key, hkey, hreads⟩ := skipToValue_eq_ok_iff.mp hto
              have hfirst : c.Reads [.comma] (c.skipBlank.shift 1) :=
                (reads_char_iff rfl).mpr ⟨⟨rest, hcomma ▸ hrest⟩, rfl⟩
              exact .inr ⟨key, mid, hkey, hfirst.append hreads, (Except.ok.inj h).symm⟩
      · split at h
        · next hclosing =>
            exact .inl ⟨_, (reads_char_iff rfl).mpr ⟨⟨rest, hclosing ▸ hrest⟩, rfl⟩,
              (Except.ok.inj h).symm⟩
        · cases h

theorem openContainer_closes (h : c.Reads [.closes kind] after) :
    openContainer kind within c = .ok (behind within after) := by
  obtain ⟨⟨rest, hrest⟩, hshift⟩ := (reads_char_iff rfl).mp h
  simp only [openContainer, hrest, if_true, hshift]

theorem openContainer_key (within : List Container) (hkey : KeyTokens kind key)
    (h : c.Reads key mid) (hmore : mid.Reads (token :: tokens) after)
    (htoken : token.isPunctuation = false) :
    ∃ mid', openContainer kind within c = .ok ⟨true, kind :: within, mid'⟩ ∧
      mid'.Reads (token :: tokens) after := by
  cases hkey with
  | list =>
      obtain rfl := reads_nil_iff.mp h
      obtain ⟨first, rest, htext, hfirst⟩ := JsonToken.first_of_not_isPunctuation htoken
      obtain ⟨rest', hrest⟩ := hmore.head_eq
      have hopen : first ≠ Container.list.closing := by
        rintro rfl
        exact hfirst (by decide)
      refine ⟨mid.skipBlank, ?_, reads_skipBlank_iff.mpr hmore⟩
      simp only [openContainer, hrest, htext, List.cons_append, if_neg hopen, skipToValue]
  | object pieces =>
      obtain ⟨rest, hrest⟩ := h.head_eq
      have hto : c.skipBlank.skipToValue .object = .ok mid :=
        skipToValue_eq_ok_iff.mpr ⟨_, .object pieces, reads_skipBlank_iff.mpr h⟩
      refine ⟨mid, ?_, hmore⟩
      simp only [openContainer, hrest, JsonToken.text, StringPiece.quoted, List.cons_append,
        Container.closing, hto]
      rfl

theorem of_openContainer (h : openContainer kind within c = .ok s) :
    (∃ mid, c.Reads [.closes kind] mid ∧ s = behind within mid) ∨
    ∃ key mid, KeyTokens kind key ∧ (∀ token tokens after, mid.Reads (token :: tokens) after →
      c.Reads (key ++ token :: tokens) after) ∧ s = ⟨true, kind :: within, mid⟩ := by
  unfold openContainer at h
  simp only at h
  split at h
  · cases h
  · next x rest hrest =>
      split at h
      · next hclosing =>
          exact .inl ⟨_, (reads_char_iff rfl).mpr ⟨⟨rest, hclosing ▸ hrest⟩, rfl⟩,
            (Except.ok.inj h).symm⟩
      · split at h
        · cases h
        · next mid hto =>
            obtain ⟨key, hkey, hreads⟩ := skipToValue_eq_ok_iff.mp hto
            refine .inr ⟨key, mid, hkey, fun token tokens after hmore => ?_, (Except.ok.inj h).symm⟩
            cases hkey with
            | list =>
                obtain rfl := reads_nil_iff.mp hreads
                exact reads_skipBlank_iff.mp hmore
            | object pieces => exact (reads_skipBlank_iff.mp hreads).append hmore

theorem stepBefore_digit (hrest : c.skipBlank.rest = x :: rest) (hx : x.isDigit = true) :
    stepBefore within c = c.skipBlank.skipNumber.map (behind within) := by
  have hne : ∀ letter : Char, letter.isDigit = false → x ≠ letter := by
    rintro letter hletter rfl
    rw [hx] at hletter
    cases hletter
  simp only [stepBefore, hrest, if_neg (hne 'n' rfl), if_neg (hne 't' rfl), if_neg (hne 'f' rfl),
    if_neg (hne '-' rfl), hx, if_true]

/-- A value that is no container is passed over in one step. -/
theorem stepBefore_scalar (htoken : token.isScalar = true) (h : c.Reads [token] after)
    (hend : after.EndsNumber) : stepBefore within c = .ok (behind within after) := by
  have hpasses := reads_singleton_iff.mp h
  cases token with
  | null =>
      obtain ⟨⟨rest, hrest⟩, hmore⟩ := passes_cons_iff.mp hpasses
      simp only [stepBefore, hrest, readLetters_eq_ok_iff.mpr hmore]
      rfl
  | bool value =>
      cases value with
      | true | false =>
          obtain ⟨⟨rest, hrest⟩, hmore⟩ := passes_cons_iff.mp hpasses
          simp only [stepBefore, hrest, readLetters_eq_ok_iff.mpr hmore]
          rfl
  | string pieces =>
      obtain ⟨⟨rest, hrest⟩, hmore⟩ := passes_cons_iff.mp hpasses
      simp only [stepBefore, hrest, skipString_of_passes hmore]
      rfl
  | number n =>
      rw [JsonToken.text] at hpasses
      cases hsign : n.isNegative with
      | true =>
          rw [NumberLiteral.text_of_isNegative hsign] at hpasses
          obtain ⟨⟨rest, hrest⟩, hmore⟩ := passes_cons_iff.mp hpasses
          simp only [stepBefore, hrest, skipNumber_of_passes hmore hend]
          rfl
      | false =>
          rw [NumberLiteral.text_of_not_isNegative hsign] at hpasses
          obtain ⟨first, rest, htext, hfirst⟩ := n.unsigned_eq_cons
          have hrest := hpasses.rest_eq
          rw [htext, List.cons_append] at hrest
          rw [stepBefore_digit hrest hfirst, skipNumber_of_passes hpasses hend]
          rfl
  | _ => cases htoken

theorem stepBefore_opens (h : c.Reads [.opens kind] mid) :
    stepBefore within c = openContainer kind within mid := by
  cases kind with
  | list | object =>
      obtain ⟨⟨rest, hrest⟩, hshift⟩ := (reads_char_iff rfl).mp h
      simp only [stepBefore, hrest, hshift]
      rfl

theorem map_behind_eq_ok_iff {r : Except PayloadError Cursor} :
    r.map (behind within) = .ok s ↔ ∃ mid, r = .ok mid ∧ s = behind within mid := by
  cases r with
  | error e => exact ⟨nofun, fun ⟨_, h, _⟩ => nomatch h⟩
  | ok mid =>
      constructor
      · intro h
        exact ⟨mid, rfl, (Except.ok.inj h).symm⟩
      · rintro ⟨_, h, rfl⟩
        obtain rfl := Except.ok.inj h
        rfl

theorem exists_word_of_readLetters {letters : List Char} (hrest : c.rest = x :: rest)
    (h : ((c.shift 1).readLetters letters).map (behind within) = .ok s) :
    ∃ mid, c.Passes (x :: letters) mid ∧ s = behind within mid := by
  obtain ⟨mid, hmid, hs⟩ := map_behind_eq_ok_iff.mp h
  exact ⟨mid, .cons hrest (readLetters_eq_ok_iff.mp hmid), hs⟩

theorem of_stepBefore (h : stepBefore within c = .ok s) :
    (∃ token mid, token.isScalar = true ∧ c.Reads [token] mid ∧ s = behind within mid) ∨
    ∃ kind mid, c.Reads [.opens kind] mid ∧ openContainer kind within mid = .ok s := by
  unfold stepBefore at h
  simp only at h
  split at h
  · cases h
  · next x rest hrest =>
      split at h
      · next hx =>
          obtain ⟨mid, hword, hs⟩ := exists_word_of_readLetters (hx ▸ hrest) h
          exact .inl ⟨.null, mid, rfl, reads_singleton hword, hs⟩
      split at h
      · next hx =>
          obtain ⟨mid, hword, hs⟩ := exists_word_of_readLetters (hx ▸ hrest) h
          exact .inl ⟨.bool true, mid, rfl, reads_singleton hword, hs⟩
      split at h
      · next hx =>
          obtain ⟨mid, hword, hs⟩ := exists_word_of_readLetters (hx ▸ hrest) h
          exact .inl ⟨.bool false, mid, rfl, reads_singleton hword, hs⟩
      split at h
      · next hx =>
          obtain ⟨mid, hmid, hs⟩ := map_behind_eq_ok_iff.mp h
          obtain ⟨n, hsign, hn⟩ := exists_number_of_skipNumber hmid true
          refine .inl ⟨.number n, mid, rfl, reads_singleton ?_, hs⟩
          rw [JsonToken.text, NumberLiteral.text_of_isNegative hsign]
          exact .cons (hx ▸ hrest) hn
      split at h
      · next hx =>
          obtain ⟨mid, hmid, hs⟩ := map_behind_eq_ok_iff.mp h
          obtain ⟨n, hsign, hn⟩ := exists_number_of_skipNumber hmid false
          refine .inl ⟨.number n, mid, rfl, reads_singleton ?_, hs⟩
          rw [JsonToken.text, NumberLiteral.text_of_not_isNegative hsign]
          exact hn
      split at h
      · next hx =>
          obtain ⟨mid, hmid, hs⟩ := map_behind_eq_ok_iff.mp h
          obtain ⟨pieces, hpieces⟩ := skipString_eq_ok_iff.mp hmid
          exact .inl ⟨.string pieces, mid, rfl, reads_singleton (.cons (hx ▸ hrest) hpieces), hs⟩
      split at h
      · next hx =>
          exact .inr ⟨.list, _, (reads_char_iff rfl).mpr ⟨⟨rest, by rw [hrest, hx]; rfl⟩, rfl⟩, h⟩
      split at h
      · next hx =>
          exact .inr ⟨.object, _, (reads_char_iff rfl).mpr ⟨⟨rest, by rw [hrest, hx]; rfl⟩, rfl⟩, h⟩
      · cases h

/-! ## A whole run -/

theorem skipFrom_stepBefore (h : stepBefore within c = .ok s) :
    skipFrom true within c = skipFrom s.isBefore s.within s.cursor := by
  rw [skipFrom.eq_1]
  split
  · next herror => rw [h] at herror; cases herror
  · next hok =>
      rw [h] at hok
      obtain rfl := Except.ok.inj hok
      rfl

theorem skipFrom_stepBehind (h : stepBehind kind within c = .ok s) :
    skipFrom false (kind :: within) c = skipFrom s.isBefore s.within s.cursor := by
  rw [skipFrom.eq_3]
  split
  · next herror => rw [h] at herror; cases herror
  · next hok =>
      rw [h] at hok
      obtain rfl := Except.ok.inj hok
      rfl

theorem skipFrom_closes (h : c.Reads [.closes kind] mid) :
    skipFrom false (kind :: within) c = skipFrom false within mid :=
  skipFrom_stepBehind (stepBehind_closes h)

theorem skipFrom_scalar (htoken : token.isScalar = true) (h : c.Reads [token] after)
    (hend : after.EndsNumber) : skipFrom true within c = skipFrom false within after :=
  skipFrom_stepBefore (stepBefore_scalar htoken h hend)

theorem skipFrom_empty (h : c.Reads [.opens kind, .closes kind] after) :
    skipFrom true within c = skipFrom false within after := by
  obtain ⟨mid, hopens, hcloses⟩ := reads_token_iff.mp h
  refine skipFrom_stepBefore (s := behind within after) ?_
  rw [stepBefore_opens hopens, openContainer_closes hcloses]

theorem skipFrom_opens {v : JsonValue} (within : List Container) (hkey : KeyTokens kind key)
    (h : c.Reads (.opens kind :: key) mid) (hmore : mid.Reads v.tokens after) :
    ∃ start, skipFrom true within c = skipFrom true (kind :: within) start ∧
      start.Reads v.tokens after := by
  obtain ⟨first, rest, htokens, hfirst⟩ := v.tokens_eq_cons
  obtain ⟨inner, hopens, hkeyReads⟩ := reads_token_iff.mp h
  rw [htokens] at hmore ⊢
  obtain ⟨start, hopen, hstart⟩ := openContainer_key within hkey hkeyReads hmore hfirst
  refine ⟨start, ?_, hstart⟩
  exact skipFrom_stepBefore ((stepBefore_opens hopens).trans hopen)

theorem skipFrom_comma (hkey : KeyTokens kind key) (h : c.Reads (.comma :: key) mid) :
    skipFrom false (kind :: within) c = skipFrom true (kind :: within) mid :=
  skipFrom_stepBehind (stepBehind_comma hkey h)

theorem Reads.endsNumber_of_moreItems {items : List JsonValue}
    (h : c.Reads (JsonValue.moreItems items) after) : c.EndsNumber := by
  obtain ⟨first, rest, htokens, hfirst⟩ := JsonValue.moreItems_eq_cons items
  exact (htokens ▸ h).endsNumber hfirst

theorem Reads.endsNumber_of_moreMembers {members : List JsonMember}
    (h : c.Reads (JsonValue.moreMembers members) after) : c.EndsNumber := by
  obtain ⟨first, rest, htokens, hfirst⟩ := JsonValue.moreMembers_eq_cons members
  exact (htokens ▸ h).endsNumber hfirst

mutual

/-- A value is passed over, whatever it is part of. -/
theorem skipFrom_value (v : JsonValue) (within : List Container) (c after : Cursor)
    (h : c.Reads v.tokens after) (hend : after.EndsNumber) :
    skipFrom true within c = skipFrom false within after := by
  match v with
  | .null | .bool _ | .number _ | .string _ =>
      rw [JsonValue.tokens] at h
      exact skipFrom_scalar rfl h hend
  | .list [] | .object [] =>
      rw [JsonValue.tokens] at h
      exact skipFrom_empty h
  | .list (item :: items) =>
      rw [JsonValue.tokens, List.cons_append] at h
      obtain ⟨inner, hopens, hmore⟩ := reads_token_iff.mp h
      obtain ⟨mid, hitem, hmore⟩ := reads_append_iff.mp hmore
      obtain ⟨start, hrun, hitem⟩ := skipFrom_opens within .list hopens hitem
      rw [hrun, skipFrom_value item _ start mid hitem hmore.endsNumber_of_moreItems,
        skipFrom_moreItems items within mid after hmore]
  | .object ((pieces, value) :: members) =>
      rw [JsonValue.tokens] at h
      obtain ⟨inner, hopens, hmore⟩ :=
        reads_append_iff.mp
          (show c.Reads ([.opens .object, .string pieces, .colon] ++ _) after from h)
      obtain ⟨mid, hvalue, hmore⟩ := reads_append_iff.mp hmore
      obtain ⟨start, hrun, hvalue⟩ :=
        skipFrom_opens within (.object pieces) hopens hvalue
      rw [hrun, skipFrom_value value _ start mid hvalue hmore.endsNumber_of_moreMembers,
        skipFrom_moreMembers members within mid after hmore]

/-- What follows an item of a list is passed over. -/
theorem skipFrom_moreItems (items : List JsonValue) (within : List Container) (c after : Cursor)
    (h : c.Reads (JsonValue.moreItems items) after) :
    skipFrom false (.list :: within) c = skipFrom false within after := by
  match items with
  | [] =>
      rw [JsonValue.moreItems] at h
      exact skipFrom_closes h
  | item :: items =>
      rw [JsonValue.moreItems, List.cons_append] at h
      obtain ⟨start, hcomma, hmore⟩ := reads_token_iff.mp h
      obtain ⟨mid, hitem, hmore⟩ := reads_append_iff.mp hmore
      rw [skipFrom_comma .list hcomma,
        skipFrom_value item _ start mid hitem hmore.endsNumber_of_moreItems,
        skipFrom_moreItems items within mid after hmore]

/-- What follows a member of an object is passed over. -/
theorem skipFrom_moreMembers (members : List (List StringPiece × JsonValue))
    (within : List Container) (c after : Cursor)
    (h : c.Reads (JsonValue.moreMembers members) after) :
    skipFrom false (.object :: within) c = skipFrom false within after := by
  match members with
  | [] =>
      rw [JsonValue.moreMembers] at h
      exact skipFrom_closes h
  | (pieces, value) :: members =>
      rw [JsonValue.moreMembers] at h
      obtain ⟨start, hcomma, hmore⟩ :=
        reads_append_iff.mp (show c.Reads ([.comma, .string pieces, .colon] ++ _) after from h)
      obtain ⟨mid, hvalue, hmore⟩ := reads_append_iff.mp hmore
      rw [skipFrom_comma (.object pieces) hcomma,
        skipFrom_value value _ start mid hvalue hmore.endsNumber_of_moreMembers,
        skipFrom_moreMembers members within mid after hmore]

end

/-- A value is passed over as a whole and nothing behind it. -/
theorem skipValue_of_reads {v : JsonValue} (h : c.Reads v.tokens after) (hend : after.EndsNumber) :
    c.skipValue = .ok after := by
  rw [skipValue, skipFrom_value v [] c after h hend, skipFrom.eq_2]

end Cursor

/-! ## What is passed over -/

/-- Tokens behind a value that close the containers that it is within. -/
inductive Closes : List Container → List JsonToken → Prop where
  | nil : Closes [] []
  | close {kind : Container} {within : List Container} {tokens : List JsonToken}
      (more : Closes within tokens) : Closes (kind :: within) (.closes kind :: tokens)
  | next {kind : Container} {within : List Container} {key tokens : List JsonToken}
      (v : JsonValue) (isKey : KeyTokens kind key) (more : Closes (kind :: within) tokens) :
      Closes (kind :: within) (.comma :: key ++ (v.tokens ++ tokens))

theorem Closes.exists_items (h : Closes (.list :: within) tokens) :
    ∃ items rest, tokens = JsonValue.moreItems items ++ rest ∧ Closes within rest := by
  generalize hopen : Container.list :: within = opened at h
  induction h with
  | nil => cases hopen
  | close more _ =>
      obtain ⟨rfl, rfl⟩ := List.cons.inj hopen
      exact ⟨[], _, by rw [JsonValue.moreItems]; rfl, more⟩
  | next v isKey _ ih =>
      obtain ⟨items, rest, rfl, hrest⟩ := ih hopen
      obtain ⟨rfl, rfl⟩ := List.cons.inj hopen
      cases isKey
      refine ⟨v :: items, rest, ?_, hrest⟩
      rw [JsonValue.moreItems]
      simp

theorem Closes.exists_members (h : Closes (.object :: within) tokens) :
    ∃ members rest, tokens = JsonValue.moreMembers members ++ rest ∧ Closes within rest := by
  generalize hopen : Container.object :: within = opened at h
  induction h with
  | nil => cases hopen
  | close more _ =>
      obtain ⟨rfl, rfl⟩ := List.cons.inj hopen
      exact ⟨[], _, by rw [JsonValue.moreMembers]; rfl, more⟩
  | next v isKey _ ih =>
      obtain ⟨members, rest, rfl, hrest⟩ := ih hopen
      obtain ⟨rfl, rfl⟩ := List.cons.inj hopen
      cases isKey with
      | object pieces =>
          refine ⟨(pieces, v) :: members, rest, ?_, hrest⟩
          rw [JsonValue.moreMembers]
          simp

/-- A container that is opened and closed is a value. -/
theorem Closes.exists_container {v : JsonValue} (hkey : KeyTokens kind key)
    (h : Closes (kind :: within) tokens) :
    ∃ (container : JsonValue) (rest : List JsonToken), Closes within rest ∧
      .opens kind :: key ++ (v.tokens ++ tokens) = container.tokens ++ rest := by
  cases hkey with
  | list =>
      obtain ⟨items, rest, rfl, hrest⟩ := h.exists_items
      refine ⟨.list (v :: items), rest, hrest, ?_⟩
      rw [JsonValue.tokens]
      simp
  | object pieces =>
      obtain ⟨members, rest, rfl, hrest⟩ := h.exists_members
      refine ⟨.object ((pieces, v) :: members), rest, hrest, ?_⟩
      rw [JsonValue.tokens]
      simp

/-- The tokens that a run has yet to pass over. -/
inductive Remains : Bool → List Container → List JsonToken → Prop where
  | before {within : List Container} {tokens : List JsonToken} (v : JsonValue)
      (closes : Closes within tokens) : Remains true within (v.tokens ++ tokens)
  | behind {within : List Container} {tokens : List JsonToken} (closes : Closes within tokens) :
      Remains false within tokens

namespace Cursor

theorem remains_of_stepBefore (h : stepBefore within c = .ok s)
    (hremains : Remains s.isBefore s.within tokens) (hreads : s.cursor.Reads tokens after) :
    ∃ tokens, Remains true within tokens ∧ c.Reads tokens after := by
  obtain ⟨token, mid, htoken, hscalar, rfl⟩ | ⟨kind, mid, hopens, hcontainer⟩ := of_stepBefore h
  · cases hremains with
    | behind closes =>
        obtain ⟨v, hv⟩ := JsonToken.exists_value_of_isScalar htoken
        exact ⟨_, .before v closes, hv ▸ hscalar.append hreads⟩
  · obtain ⟨mid', hcloses, rfl⟩ | ⟨key, start, hkey, hstart, rfl⟩ := of_openContainer hcontainer
    · cases hremains with
      | behind closes =>
          have hempty := (hopens.append hcloses).append hreads
          cases kind with
          | list => exact ⟨_, .before (.list []) closes, by rw [JsonValue.tokens]; exact hempty⟩
          | object => exact ⟨_, .before (.object []) closes, by rw [JsonValue.tokens]; exact hempty⟩
    · cases hremains with
      | before v closes =>
          obtain ⟨first, rest, htokens, -⟩ := v.tokens_eq_cons
          obtain ⟨container, rest', hrest, heq⟩ := closes.exists_container hkey (v := v)
          refine ⟨_, .before container hrest, ?_⟩
          rw [← heq]
          refine hopens.append ?_
          rw [htokens] at hreads ⊢
          exact hstart _ _ _ hreads

theorem remains_of_stepBehind (h : stepBehind kind within c = .ok s)
    (hremains : Remains s.isBefore s.within tokens) (hreads : s.cursor.Reads tokens after) :
    ∃ tokens, Remains false (kind :: within) tokens ∧ c.Reads tokens after := by
  obtain ⟨mid, hcloses, rfl⟩ | ⟨key, mid, hkey, hcomma, rfl⟩ := of_stepBehind h
  · cases hremains with
    | behind closes => exact ⟨_, .behind closes.close, hcloses.append hreads⟩
  · cases hremains with
    | before v closes => exact ⟨_, .behind (.next v hkey closes), hcomma.append hreads⟩

/-- A run passes over a value, if it starts before one, and over what closes the
containers that it is within. -/
theorem remains_of_skipFrom {isBefore : Bool} (h : skipFrom isBefore within c = .ok after) :
    ∃ tokens, Remains isBefore within tokens ∧ c.Reads tokens after := by
  fun_induction skipFrom isBefore within c with
  | case1 | case4 => cases h
  | case2 c within s hstep _ ih =>
      obtain ⟨tokens, hremains, hreads⟩ := ih h
      exact remains_of_stepBefore hstep hremains hreads
  | case3 =>
      obtain rfl := Except.ok.inj h
      exact ⟨[], .behind .nil, .nil⟩
  | case5 c kind within s hstep _ ih =>
      obtain ⟨tokens, hremains, hreads⟩ := ih h
      exact remains_of_stepBehind hstep hremains hreads

/-- What is passed over is a value. -/
theorem exists_value_of_skipValue (h : c.skipValue = .ok after) :
    ∃ v : JsonValue, c.Reads v.tokens after := by
  obtain ⟨_, ⟨v, ⟨⟩⟩, hreads⟩ := remains_of_skipFrom h
  exact ⟨v, v.tokens.append_nil ▸ hreads⟩

end Cursor

end RaceSkeletons
