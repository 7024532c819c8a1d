import RaceSkeletons.Proofs.Analyzer.Cursor

/-!
# Strings

Both readers of strings pass exactly the strings (`Cursor.skipString_eq_ok_iff`). The
one that decodes them answers what the pieces stand for, and fails where they stand for
no text (`Cursor.toOption_readString`).
-/

namespace RaceSkeletons

namespace Cursor

variable {c mid after : Cursor} {x : Char} {rest s chars : List Char} {pieces : List StringPiece}

/-! ## Escapes -/

theorem fourHex?_append {digits : List Char} (hlength : digits.length = 4) (rest : List Char) :
    fourHex? (digits ++ rest) = fourHex? digits := by
  match digits, hlength with
  | [_, _, _, _], _ => rfl

theorem readHex_of_passes (u : CodeUnit) (h : c.Passes u.digits after) :
    c.readHex = .ok (u.value, after) := by
  have hfour : fourHex? c.rest = some u.value := by
    rw [h.rest_eq, fourHex?_append u.length_eq, u.isHex]
  have hafter : c.shift 4 = after := u.length_eq ▸ h.shift_length
  simp only [readHex, hfour, hafter]

theorem exists_unit_of_readHex {n : Nat} (h : c.readHex = .ok (n, after)) :
    ∃ u : CodeUnit, u.value = n ∧ c.Passes u.digits after := by
  rw [readHex] at h
  split at h
  · next value hhex =>
      obtain ⟨rfl, rfl⟩ := Prod.mk.inj (Except.ok.inj h)
      match hrest : c.rest, hhex with
      | a :: b :: d :: e :: rest, hhex =>
          refine ⟨⟨[a, b, d, e], value, rfl, hhex⟩, rfl, ?_⟩
          obtain ⟨after, hafter, -⟩ := exists_passes (show c.rest = [a, b, d, e] ++ rest from hrest)
          exact (hafter.shift_length : c.shift 4 = after) ▸ hafter
  · split at h <;> cases h

theorem ne_unit_of_escape {letter : Char} (h : escapeLetter? letter = some x) : letter ≠ 'u' := by
  rintro rfl
  cases h

theorem skipEscape_of_passes {letter : Char} (hletter : escapeLetter? letter = some x)
    (h : c.Passes [letter] after) : c.skipEscape = .ok after := by
  obtain ⟨⟨rest, hrest⟩, -⟩ := passes_cons_iff.mp h
  simp only [skipEscape, hrest, ne_unit_of_escape hletter, hletter, if_false, h.shift_one]

theorem skipEscape_of_unit (u : CodeUnit) (h : c.Passes ('u' :: u.digits) after) :
    c.skipEscape = .ok after := by
  obtain ⟨⟨rest, hrest⟩, hdigits⟩ := passes_cons_iff.mp h
  simp only [skipEscape, hrest, if_true, readHex_of_passes u hdigits]
  rfl

theorem exists_piece_of_skipEscape (h : c.skipEscape = .ok after) :
    ∃ piece : StringPiece, ∃ text, piece.text = '\\' :: text ∧ c.Passes text after := by
  rw [skipEscape] at h
  split at h
  · cases h
  · next letter rest hrest =>
      split at h
      · next hunit =>
          cases hhex : (c.shift 1).readHex with
          | error e => rw [hhex] at h; cases h
          | ok r =>
              rw [hhex] at h
              obtain rfl := Except.ok.inj h
              obtain ⟨u, -, hu⟩ := exists_unit_of_readHex (n := r.1) hhex
              exact ⟨.unit u, _, rfl, .cons (hunit ▸ hrest) hu⟩
      · split at h
        · next hletter =>
            obtain rfl := Except.ok.inj h
            exact ⟨.escape letter _ hletter, _, rfl, .cons hrest .nil⟩
        · cases h

/-! ## Passing over a string -/

theorem skipString_quote (h : c.rest = '"' :: rest) : c.skipString = .ok (c.shift 1) := by
  rw [skipString.eq_def]
  split
  · next hnil => rw [hnil] at h; cases h
  · next x rest' hrest =>
      rw [hrest] at h
      obtain ⟨rfl, rfl⟩ := List.cons.inj h
      rw [if_pos rfl]

theorem skipString_plain (h : c.rest = x :: rest) (notQuote : x ≠ '"') (notEscape : x ≠ '\\')
    (notControl : 32 ≤ x.toNat) : c.skipString = (c.shift 1).skipString := by
  rw [skipString.eq_def]
  split
  · next hnil => rw [hnil] at h; cases h
  · next x rest' hrest =>
      rw [hrest] at h
      obtain ⟨rfl, rfl⟩ := List.cons.inj h
      rw [if_neg notQuote, if_neg notEscape, if_neg (Nat.not_lt.mpr notControl)]

theorem skipString_escape (h : c.rest = '\\' :: rest) (hescape : (c.shift 1).skipEscape = .ok mid) :
    c.skipString = mid.skipString := by
  rw [skipString.eq_def]
  split
  · next hnil => rw [hnil] at h; cases h
  · next x rest' hrest =>
      rw [hrest] at h
      obtain ⟨rfl, rfl⟩ := List.cons.inj h
      rw [if_neg (by decide), if_pos rfl]
      split
      · next herror => rw [herror] at hescape; cases hescape
      · next hok =>
          rw [hok] at hescape
          obtain rfl := Except.ok.inj hescape
          rfl

theorem passes_pieces_cons_iff {piece : StringPiece} :
    c.Passes ((piece :: pieces).flatMap StringPiece.text ++ ['"']) after ↔
      ∃ mid, c.Passes piece.text mid ∧
        mid.Passes (pieces.flatMap StringPiece.text ++ ['"']) after := by
  rw [List.flatMap_cons, List.append_assoc, passes_append_iff]

/-- A string is passed over if it has the form of a string. -/
theorem skipString_of_passes (h : c.Passes (pieces.flatMap StringPiece.text ++ ['"']) after) :
    c.skipString = .ok after := by
  induction pieces generalizing c with
  | nil =>
      obtain ⟨⟨rest, hrest⟩, -⟩ := passes_cons_iff.mp h
      rw [skipString_quote hrest, h.shift_one]
  | cons piece pieces ih =>
      obtain ⟨mid, hpiece, hmore⟩ := passes_pieces_cons_iff.mp h
      rw [← ih hmore]
      cases piece with
      | plain x notQuote notEscape notControl =>
          obtain ⟨⟨rest, hrest⟩, -⟩ := passes_cons_iff.mp hpiece
          rw [skipString_plain hrest notQuote notEscape notControl, hpiece.shift_one]
      | escape letter x hletter =>
          obtain ⟨⟨rest, hrest⟩, hletterPasses⟩ := passes_cons_iff.mp hpiece
          exact skipString_escape hrest (skipEscape_of_passes hletter hletterPasses)
      | unit u =>
          obtain ⟨⟨rest, hrest⟩, hunit⟩ := passes_cons_iff.mp hpiece
          exact skipString_escape hrest (skipEscape_of_unit u hunit)

theorem exists_pieces_of_skipString (h : c.skipString = .ok after) :
    ∃ pieces : List StringPiece, c.Passes (pieces.flatMap StringPiece.text ++ ['"']) after := by
  fun_induction skipString c with
  | case1 => cases h
  | case2 c rest hrest =>
      obtain rfl := Except.ok.inj h
      exact ⟨[], .cons hrest .nil⟩
  | case3 => cases h
  | case4 c rest mid hescape hrest _ _ ih =>
      obtain ⟨pieces, hpieces⟩ := ih h
      obtain ⟨piece, text, htext, hpiece⟩ := exists_piece_of_skipEscape hescape
      refine ⟨piece :: pieces, ?_⟩
      rw [List.flatMap_cons, htext, List.append_assoc]
      exact .cons hrest (hpiece.append hpieces)
  | case5 => cases h
  | case6 c x rest hrest notQuote notEscape notControl _ ih =>
      obtain ⟨pieces, hpieces⟩ := ih h
      exact ⟨.plain x notQuote notEscape (Nat.not_lt.mp notControl) :: pieces, .cons hrest hpieces⟩

/-- What is passed over are the strings. -/
theorem skipString_eq_ok_iff : c.skipString = .ok after ↔
    ∃ pieces : List StringPiece, c.Passes (pieces.flatMap StringPiece.text ++ ['"']) after :=
  ⟨exists_pieces_of_skipString, fun ⟨_, h⟩ => skipString_of_passes h⟩

/-! ## Decoding a string -/

theorem readEscape_of_passes {letter : Char} (hletter : escapeLetter? letter = some x)
    (h : c.Passes [letter] after) : c.readEscape = .ok ([x], after) := by
  obtain ⟨⟨rest, hrest⟩, -⟩ := passes_cons_iff.mp h
  simp only [readEscape, hrest, ne_unit_of_escape hletter, hletter, if_false, h.shift_one]

theorem readEscape_of_unit (u : CodeUnit) (h : c.Passes ('u' :: u.digits) after) :
    c.readEscape =
      if isTrailingSurrogate u.value then after.faultHere .loneSurrogate
      else if isLeadingSurrogate u.value then after.readTrailing u.value
      else .ok ([Char.ofNat u.value], after) := by
  obtain ⟨⟨rest, hrest⟩, hdigits⟩ := passes_cons_iff.mp h
  simp only [readEscape, hrest, if_true, readCodeUnit, readHex_of_passes u hdigits]

theorem readTrailing_of_unit (high : Nat) (low : CodeUnit)
    (h : c.Passes (StringPiece.unit low).text after) :
    c.readTrailing high =
      if isTrailingSurrogate low.value then .ok ([pairChar high low.value], after)
      else after.faultHere .loneSurrogate := by
  obtain ⟨⟨rest, hrest⟩, htext⟩ := passes_cons_iff.mp h
  obtain ⟨⟨rest', hrest'⟩, hdigits⟩ := passes_cons_iff.mp htext
  obtain rfl : rest = 'u' :: rest' := (rest_shift_one hrest).symm.trans hrest'
  have hhex : (c.shift 2).readHex = .ok (low.value, after) := by
    rw [← shift_add 1 1 c]
    exact readHex_of_passes low hdigits
  simp only [readTrailing, hrest, hhex]

/-- The second half of a pair has to follow at once. -/
theorem readTrailing_ne_ok (high : Nat)
    (hpieces : ∀ (low : CodeUnit) (rest : List StringPiece), pieces = .unit low :: rest → False)
    (h : c.Passes (pieces.flatMap StringPiece.text ++ ['"']) after) :
    ∃ e, c.readTrailing high = .error e := by
  cases pieces with
  | nil =>
      obtain ⟨⟨rest, hrest⟩, -⟩ := passes_cons_iff.mp h
      exact ⟨_, by simp only [readTrailing, hrest]; rfl⟩
  | cons piece pieces =>
      cases piece with
      | plain x notQuote notEscape notControl =>
          obtain ⟨⟨rest, hrest⟩, -⟩ := passes_cons_iff.mp h
          simp only [readTrailing, hrest]
          split
          · exact ⟨_, rfl⟩
          · next heq => exact absurd (List.cons.inj heq).1 notEscape
          · next heq => exact absurd (List.cons.inj heq).1 notEscape
          · exact ⟨_, rfl⟩
          · exact ⟨_, rfl⟩
      | escape letter x hletter =>
          obtain ⟨⟨rest, hrest⟩, hmore⟩ := passes_cons_iff.mp h
          obtain ⟨⟨rest', hrest'⟩, -⟩ := passes_cons_iff.mp hmore
          obtain rfl : rest = letter :: rest' := (rest_shift_one hrest).symm.trans hrest'
          simp only [readTrailing, hrest]
          split
          · exact ⟨_, rfl⟩
          · exact ⟨_, rfl⟩
          · next heq =>
              exact absurd (List.cons.inj (List.cons.inj heq).2).1 (ne_unit_of_escape hletter)
          · exact ⟨_, rfl⟩
          · exact ⟨_, rfl⟩
      | unit low => exact absurd rfl (hpieces low pieces)

theorem readString_quote (h : c.rest = '"' :: rest) : c.readString = .ok ([], c.shift 1) := by
  rw [readString.eq_def]
  split
  · next hnil => rw [hnil] at h; cases h
  · next x rest' hrest =>
      rw [hrest] at h
      obtain ⟨rfl, rfl⟩ := List.cons.inj h
      rw [if_pos rfl]

theorem readString_plain (h : c.rest = x :: rest) (notQuote : x ≠ '"') (notEscape : x ≠ '\\')
    (notControl : 32 ≤ x.toNat) :
    c.readString = (c.shift 1).readString.map fun r => (x :: r.1, r.2) := by
  rw [readString.eq_def]
  split
  · next hnil => rw [hnil] at h; cases h
  · next x rest' hrest =>
      rw [hrest] at h
      obtain ⟨rfl, rfl⟩ := List.cons.inj h
      rw [if_neg notQuote, if_neg notEscape, if_neg (Nat.not_lt.mpr notControl)]
      split
      · next herror => rw [herror]; rfl
      · next hok => rw [hok]; rfl

theorem toOption_readString_escape (h : c.rest = '\\' :: rest) :
    c.readString.toOption = (c.shift 1).readEscape.toOption.bind fun e =>
      e.2.readString.toOption.map fun r => (e.1 ++ r.1, r.2) := by
  rw [readString.eq_def]
  split
  · next hnil => rw [hnil] at h; cases h
  · next x rest' hrest =>
      rw [hrest] at h
      obtain ⟨rfl, rfl⟩ := List.cons.inj h
      rw [if_neg (by decide), if_pos rfl]
      split
      · next herror => rw [herror]; rfl
      · next hescape =>
          simp only [hescape, toOption_ok, Option.bind_some]
          split
          · next herror => rw [herror]; rfl
          · next hok => rw [hok]; rfl

/-- A string that stands for a text is read as that text, and no other string is read. -/
theorem toOption_readString (h : c.Passes (pieces.flatMap StringPiece.text ++ ['"']) after) :
    c.readString.toOption = (StringPiece.decode pieces).map fun s => (s, after) := by
  fun_induction StringPiece.decode pieces generalizing c with
  | case1 =>
      obtain ⟨⟨rest, hrest⟩, -⟩ := passes_cons_iff.mp h
      rw [readString_quote hrest, h.shift_one]
      rfl
  | case2 x notQuote notEscape notControl pieces ih =>
      obtain ⟨⟨rest, hrest⟩, hmore⟩ := passes_cons_iff.mp h
      rw [readString_plain hrest notQuote notEscape notControl, toOption_map, ih hmore]
      simp only [Option.map_map, Function.comp_def]
  | case3 letter x hletter pieces ih =>
      obtain ⟨mid, hpiece, hmore⟩ := passes_pieces_cons_iff.mp h
      obtain ⟨⟨rest, hrest⟩, hescape⟩ := passes_cons_iff.mp hpiece
      rw [toOption_readString_escape hrest, readEscape_of_passes hletter hescape, toOption_ok,
        Option.bind_some, ih hmore]
      simp only [Option.map_map, Function.comp_def]
      rfl
  | case4 high pieces htrailing =>
      obtain ⟨mid, hpiece, -⟩ := passes_pieces_cons_iff.mp h
      obtain ⟨⟨rest, hrest⟩, hescape⟩ := passes_cons_iff.mp hpiece
      have herror := readEscape_of_unit high hescape
      rw [if_pos htrailing] at herror
      rw [toOption_readString_escape hrest, herror]
      rfl
  | case5 high htrailing hleading low pieces hlow ih =>
      obtain ⟨mid, hpiece, hmore⟩ := passes_pieces_cons_iff.mp h
      obtain ⟨next, hnext, hmore⟩ := passes_pieces_cons_iff.mp hmore
      obtain ⟨⟨rest, hrest⟩, hescape⟩ := passes_cons_iff.mp hpiece
      have hpair := readEscape_of_unit high hescape
      rw [if_neg htrailing, if_pos hleading, readTrailing_of_unit _ low hnext, if_pos hlow] at hpair
      rw [toOption_readString_escape hrest, hpair, toOption_ok, Option.bind_some, ih hmore]
      simp only [Option.map_map, Function.comp_def]
      rfl
  | case6 high htrailing hleading low pieces hlow =>
      obtain ⟨mid, hpiece, hmore⟩ := passes_pieces_cons_iff.mp h
      obtain ⟨next, hnext, -⟩ := passes_pieces_cons_iff.mp hmore
      obtain ⟨⟨rest, hrest⟩, hescape⟩ := passes_cons_iff.mp hpiece
      have herror := readEscape_of_unit high hescape
      rw [if_neg htrailing, if_pos hleading, readTrailing_of_unit _ low hnext,
        if_neg hlow] at herror
      rw [toOption_readString_escape hrest, herror]
      rfl
  | case7 high pieces htrailing hleading hpieces =>
      obtain ⟨mid, hpiece, hmore⟩ := passes_pieces_cons_iff.mp h
      obtain ⟨⟨rest, hrest⟩, hescape⟩ := passes_cons_iff.mp hpiece
      obtain ⟨e, he⟩ := readTrailing_ne_ok high.value hpieces hmore
      have herror := readEscape_of_unit high hescape
      rw [if_neg htrailing, if_pos hleading, he] at herror
      rw [toOption_readString_escape hrest, herror]
      rfl
  | case8 high pieces htrailing hleading ih =>
      obtain ⟨mid, hpiece, hmore⟩ := passes_pieces_cons_iff.mp h
      obtain ⟨⟨rest, hrest⟩, hescape⟩ := passes_cons_iff.mp hpiece
      have hunit := readEscape_of_unit high hescape
      rw [if_neg htrailing, if_neg hleading] at hunit
      rw [toOption_readString_escape hrest, hunit, toOption_ok, Option.bind_some, ih hmore]
      simp only [Option.map_map, Function.comp_def]
      rfl

theorem exists_unit_of_readTrailing {high : Nat} (h : c.readTrailing high = .ok (chars, after)) :
    ∃ u : CodeUnit, c.Passes (StringPiece.unit u).text after := by
  rw [readTrailing.eq_def] at h
  split at h
  · cases h
  · cases h
  · next rest hrest =>
      split at h
      · cases h
      · next low mid hhex =>
          split at h
          · obtain ⟨-, rfl⟩ := Prod.mk.inj (Except.ok.inj h)
            rw [← shift_add 1 1 c] at hhex
            obtain ⟨u, -, hu⟩ := exists_unit_of_readHex hhex
            exact ⟨u, .cons hrest (.cons (rest_shift_one hrest) hu)⟩
          · cases h
  · cases h
  · cases h

theorem exists_pieces_of_readEscape (h : c.readEscape = .ok (chars, after)) :
    ∃ (pieces : List StringPiece) (text : List Char),
      pieces.flatMap StringPiece.text = '\\' :: text ∧ c.Passes text after := by
  rw [readEscape] at h
  split at h
  · cases h
  · next letter rest hrest =>
      split at h
      · next hunit =>
          rw [readCodeUnit] at h
          split at h
          · cases h
          · next value mid hhex =>
              obtain ⟨u, -, hu⟩ := exists_unit_of_readHex hhex
              have hfirst : c.Passes ('u' :: u.digits) mid := .cons (hunit ▸ hrest) hu
              split at h
              · cases h
              · split at h
                · obtain ⟨low, hlow⟩ := exists_unit_of_readTrailing h
                  refine ⟨[.unit u, .unit low], _, rfl, ?_⟩
                  simpa [StringPiece.text] using hfirst.append hlow
                · obtain ⟨-, rfl⟩ := Prod.mk.inj (Except.ok.inj h)
                  exact ⟨[.unit u], _, rfl, by simpa using hfirst⟩
      · split at h
        · next hletter =>
            obtain ⟨-, rfl⟩ := Prod.mk.inj (Except.ok.inj h)
            exact ⟨[.escape letter _ hletter], _, rfl, .cons hrest .nil⟩
        · cases h

theorem exists_pieces_of_readString (h : c.readString = .ok (s, after)) :
    ∃ pieces : List StringPiece, c.Passes (pieces.flatMap StringPiece.text ++ ['"']) after := by
  fun_induction readString c generalizing s after with
  | case1 | case3 | case4 | case6 | case7 => cases h
  | case2 c rest hrest =>
      obtain ⟨-, rfl⟩ := Prod.mk.inj (Except.ok.inj h)
      exact ⟨[], .cons hrest .nil⟩
  | case5 c rest chars mid hescape s last hmore hrest _ _ ih =>
      obtain ⟨-, rfl⟩ := Prod.mk.inj (Except.ok.inj h)
      obtain ⟨pieces, hpieces⟩ := ih hmore
      obtain ⟨escaped, text, htext, hescaped⟩ := exists_pieces_of_readEscape hescape
      refine ⟨escaped ++ pieces, ?_⟩
      rw [List.flatMap_append, htext, List.append_assoc]
      exact .cons hrest (hescaped.append hpieces)
  | case8 c x rest hrest notQuote notEscape notControl _ s last hmore ih =>
      obtain ⟨-, rfl⟩ := Prod.mk.inj (Except.ok.inj h)
      obtain ⟨pieces, hpieces⟩ := ih hmore
      exact ⟨.plain x notQuote notEscape (Nat.not_lt.mp notControl) :: pieces, .cons hrest hpieces⟩

end Cursor

end RaceSkeletons
