import RaceSkeletons.Proofs.Analyzer.Fields

/-!
# Reading the items of a list

A list is read as well: its items are the values of the fields in their order
(`Cursor.toOption_readItems`).
-/

namespace RaceSkeletons

/-- The tokens of a list behind its bracket, or behind one of its items. -/
def JsonValue.itemTokens : (isFirst : Bool) → List JsonValue → List JsonToken
  | true, item :: items => item.tokens ++ moreItems items
  | _, items => moreItems items

namespace JsonValue

theorem itemTokens_nil (isFirst : Bool) : itemTokens isFirst [] = [.closes .list] := by
  cases isFirst <;> simp [itemTokens, moreItems]

theorem itemTokens_cons (isFirst : Bool) (item : JsonValue) (items : List JsonValue) :
    itemTokens isFirst (item :: items) =
      (if isFirst then [] else [.comma]) ++ (item.tokens ++ itemTokens false items) := by
  cases isFirst <;> simp [itemTokens, moreItems]

end JsonValue

namespace Cursor

variable {c mid after : Cursor} {v : JsonValue} {items : List JsonValue} {isFirst : Bool}
  {d d' : PayloadDraft} {field : PayloadField} {fields : List PayloadField}
  {tokens : List JsonToken}

theorem readListEnd_eq_ok_iff : c.readListEnd = .ok after ↔ c.Reads [.closes .list] after := by
  rw [reads_char_iff rfl, readListEnd]
  constructor
  · intro h
    split at h
    · cases h
    · next x rest hrest =>
        split at h
        · next hx => exact ⟨⟨rest, by rw [hrest, hx]; rfl⟩, Except.ok.inj h⟩
        · split at h
          · simp only at h
            split at h <;> cases h
          · cases h
  · rintro ⟨⟨rest, hrest⟩, rfl⟩
    simp only [hrest, Container.closing, if_true]

/-- A value does not begin like the end of a list, nor like what stands between items. -/
theorem Reads.head_of_value (h : c.Reads (v.tokens ++ tokens) after) :
    ∃ x rest, c.skipBlank.rest = x :: rest ∧ x ≠ ']' ∧ x ≠ ',' := by
  obtain ⟨first, rest, htokens, hfirst⟩ := v.tokens_eq_cons
  obtain ⟨x, text, htext, hx⟩ := JsonToken.first_of_not_isPunctuation hfirst
  rw [htokens] at h
  obtain ⟨rest', hrest⟩ := h.head_eq
  refine ⟨x, text ++ rest', by rw [hrest, htext, List.cons_append], ?_, ?_⟩
  · rintro rfl
    exact hx (by decide)
  · rintro rfl
    exact hx (by decide)

/-! ## One item -/

theorem readElements_closes (h : c.Reads [.closes .list] after) :
    readElements isFirst d (field :: fields) c = .ok (d, c.skipBlank) := by
  obtain ⟨⟨rest, hrest⟩, -⟩ := (reads_char_iff rfl).mp h
  simp only [readElements, hrest, Container.closing, if_true]

/-- An item is read as the value of the next field. -/
theorem toOption_readElements_item (d : PayloadDraft) (field : PayloadField)
    (fields : List PayloadField)
    (h : c.Reads ((if isFirst then [] else [.comma]) ++ (v.tokens ++ tokens)) after) :
    ∃ start : Cursor, start.Reads (v.tokens ++ tokens) after ∧
      (readElements isFirst d (field :: fields) c).toOption =
        (readField d field start).toOption.bind fun r =>
          (readElements false r.1 fields r.2).toOption := by
  have hskip : ∀ {start : Cursor}, start.Reads (v.tokens ++ tokens) after →
      start.skipBlank.Reads (v.tokens ++ tokens) after := by
    intro start hstart
    obtain ⟨mid, hv, hmore⟩ := reads_append_iff.mp hstart
    exact (reads_value_skipBlank_iff.mpr hv).append hmore
  cases isFirst with
  | true =>
      obtain ⟨x, rest, hrest, hclose, -⟩ := Reads.head_of_value h
      refine ⟨c.skipBlank, hskip h, ?_⟩
      simp only [readElements, hrest, if_neg hclose, if_true]
      cases readField d field c.skipBlank <;> rfl
  | false =>
      obtain ⟨start, hcomma, hvalue⟩ := reads_append_iff.mp h
      obtain ⟨⟨rest, hrest⟩, rfl⟩ := (reads_char_iff rfl).mp hcomma
      obtain ⟨x, rest', hrest', hclose, -⟩ := hvalue.head_of_value
      refine ⟨_, hskip hvalue, ?_⟩
      simp only [readElements, hrest, hrest', if_neg hclose]
      cases readField d field (c.skipBlank.shift 1).skipBlank <;> rfl

/-! ## All items -/

/-- The items of a list up to its end. -/
def readItems (isFirst : Bool) (d : PayloadDraft) (fields : List PayloadField) (c : Cursor) :
    Reading PayloadDraft :=
  (readElements isFirst d fields c).bind fun r => r.2.readListEnd.map fun after => (r.1, after)

theorem toOption_readItems_eq : (readItems isFirst d fields c).toOption =
    (readElements isFirst d fields c).toOption.bind fun r =>
      r.2.readListEnd.toOption.map fun after => (r.1, after) := by
  unfold readItems
  cases readElements isFirst d fields c with
  | error e => rfl
  | ok r => exact toOption_map _ _

/-- A list does not end before an item. -/
theorem readListEnd_item
    (h : c.Reads ((if isFirst then [] else [.comma]) ++ (v.tokens ++ tokens)) after) :
    c.readListEnd.toOption = none := by
  cases hend : c.readListEnd with
  | error e => rfl
  | ok last =>
      obtain ⟨⟨rest, hrest⟩, -⟩ := (reads_char_iff rfl).mp (readListEnd_eq_ok_iff.mp hend)
      cases isFirst with
      | true =>
          obtain ⟨x, rest', hrest', hclose, -⟩ := Reads.head_of_value h
          exact absurd (List.cons.inj (hrest'.symm.trans hrest)).1 hclose
      | false =>
          obtain ⟨start, hcomma, -⟩ := reads_append_iff.mp h
          obtain ⟨⟨rest', hrest'⟩, -⟩ := (reads_char_iff rfl).mp hcomma
          exact absurd (List.cons.inj (hrest'.symm.trans hrest)).1 (by decide)

/-- What the reader of a list makes of its items. -/
theorem toOption_readItems (h : c.Reads (JsonValue.itemTokens isFirst items) after) :
    (readItems isFirst d fields c).toOption =
      (d.fill? fields items).map fun d => (d, after) := by
  rw [toOption_readItems_eq]
  induction fields generalizing isFirst items d c with
  | nil =>
      cases items with
      | nil =>
          rw [JsonValue.itemTokens_nil] at h
          simp only [readElements, toOption_ok, Option.bind_some, readListEnd_eq_ok_iff.mpr h]
          rfl
      | cons v items =>
          rw [JsonValue.itemTokens_cons] at h
          simp only [readElements, toOption_ok, Option.bind_some, readListEnd_item h]
          rfl
  | cons field fields ih =>
      cases items with
      | nil =>
          rw [JsonValue.itemTokens_nil] at h
          have hend := readListEnd_eq_ok_iff.mpr (reads_skipBlank_iff.mpr h)
          simp only [readElements_closes h, toOption_ok, Option.bind_some, hend]
          rfl
      | cons v items =>
          rw [JsonValue.itemTokens_cons] at h
          obtain ⟨start, hstart, hread⟩ :=
            toOption_readElements_item d field fields h
          obtain ⟨mid, hv, hmore⟩ := reads_append_iff.mp hstart
          have hend : mid.EndsNumber := hmore.endsNumber_of_moreItems
          rw [hread, toOption_readField d field hv hend, Option.bind_map, Option.bind_assoc,
            PayloadDraft.fill?, Option.map_bind]
          exact congrArg _ (funext fun d => ih hmore)

/-- The elements end before the end of the list, or an item is read for the next field. -/
theorem of_readElements_cons (h : readElements isFirst d (field :: fields) c = .ok (d', mid)) :
    mid = c.skipBlank ∨
    ∃ (start : Cursor) (d₁ : PayloadDraft) (next : Cursor),
      c.Reads (if isFirst then [] else [.comma]) start ∧
      readField d field start.skipBlank = .ok (d₁, next) ∧
      readElements false d₁ fields next = .ok (d', mid) := by
  rw [readElements] at h
  simp only at h
  split at h
  · cases h
  · next x rest hrest =>
      split at h
      · obtain ⟨-, rfl⟩ := Prod.mk.inj (Except.ok.inj h)
        exact .inl rfl
      · split at h
        · next hfirst =>
            split at h
            · cases h
            · next d₁ next hfield =>
                exact .inr ⟨c, d₁, next, by rw [if_pos hfirst]; exact .nil, hfield, h⟩
        · next hfirst =>
            split at h
            · next hcomma =>
                have hfollows : c.Reads [.comma] (c.skipBlank.shift 1) :=
                  (reads_char_iff rfl).mpr ⟨⟨rest, hcomma ▸ hrest⟩, rfl⟩
                split at h
                · cases h
                · split at h
                  · cases h
                  · split at h
                    · cases h
                    · next d₁ next hfield =>
                        exact .inr ⟨_, d₁, next, by rw [if_neg hfirst]; exact hfollows, hfield, h⟩
            · cases h

/-- What the elements and the end of a list are read from are items. -/
theorem exists_items_of_readElements (h : readElements isFirst d fields c = .ok (d', mid))
    (hend : mid.readListEnd = .ok after) :
    ∃ items, c.Reads (JsonValue.itemTokens isFirst items) after := by
  have hcloses := readListEnd_eq_ok_iff.mp hend
  induction fields generalizing isFirst d c with
  | nil =>
      obtain ⟨rfl, rfl⟩ := Prod.mk.inj (Except.ok.inj h)
      exact ⟨[], by rw [JsonValue.itemTokens_nil]; exact hcloses⟩
  | cons field fields ih =>
      obtain rfl | ⟨start, d₁, next, hstart, hfield, hmore⟩ := of_readElements_cons h
      · refine ⟨[], ?_⟩
        rw [JsonValue.itemTokens_nil]
        exact reads_skipBlank_iff.mp hcloses
      · obtain ⟨v, hv⟩ := exists_value_of_readField hfield
        obtain ⟨items, hitems⟩ := ih hmore
        refine ⟨v :: items, ?_⟩
        rw [JsonValue.itemTokens_cons]
        exact hstart.append ((reads_value_skipBlank_iff.mp hv).append hitems)

/-- What the reader of a list reads are items. -/
theorem exists_items_of_readItems (h : readItems isFirst d fields c = .ok (d', after)) :
    ∃ items, c.Reads (JsonValue.itemTokens isFirst items) after := by
  unfold readItems at h
  cases helements : readElements isFirst d fields c with
  | error e => rw [helements] at h; cases h
  | ok r =>
      obtain ⟨d₁, mid⟩ := r
      rw [helements] at h
      change mid.readListEnd.map (fun after => (d₁, after)) = .ok (d', after) at h
      cases hend : mid.readListEnd with
      | error e => rw [hend] at h; cases h
      | ok last =>
          rw [hend] at h
          obtain ⟨-, rfl⟩ := Prod.mk.inj (Except.ok.inj h)
          exact exists_items_of_readElements helements hend

end Cursor

end RaceSkeletons
