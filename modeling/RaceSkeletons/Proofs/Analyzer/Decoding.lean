import RaceSkeletons.Proofs.Analyzer.Members
import RaceSkeletons.Proofs.Analyzer.Items
import RaceSkeletons.Proofs.Text.Trim

/-!
# Decoding a verdict document

A text is a verdict if it is an object that accounts for a payload, or a list of the
field values, and no other text is one (`Payload.parse_eq_ok_iff`). What an object says
does not depend on how it is laid out (`Payload.parse_object_iff`).
-/

namespace RaceSkeletons

namespace Cursor

variable {c after : Cursor} {v : JsonValue} {members : List JsonMember} {items : List JsonValue}
  {d : PayloadDraft}

theorem reads_object_iff : c.Reads (JsonValue.object members).tokens after ↔
    (∃ rest, c.skipBlank.rest = '\x7b' :: rest) ∧
      (c.skipBlank.shift 1).Reads (JsonValue.memberTokens true members) after := by
  have htokens : (JsonValue.object members).tokens =
      [.opens .object] ++ JsonValue.memberTokens true members := by
    cases members with
    | nil => simp [JsonValue.memberTokens, JsonValue.tokens, JsonValue.moreMembers]
    | cons m members => simp [JsonValue.memberTokens, JsonValue.tokens]
  rw [htokens, reads_append_iff]
  constructor
  · rintro ⟨mid, hopens, hmore⟩
    obtain ⟨hfirst, rfl⟩ := (reads_char_iff rfl).mp hopens
    exact ⟨hfirst, hmore⟩
  · rintro ⟨hfirst, hmore⟩
    exact ⟨_, (reads_char_iff rfl).mpr ⟨hfirst, rfl⟩, hmore⟩

theorem reads_list_iff : c.Reads (JsonValue.list items).tokens after ↔
    (∃ rest, c.skipBlank.rest = '[' :: rest) ∧
      (c.skipBlank.shift 1).Reads (JsonValue.itemTokens true items) after := by
  have htokens : (JsonValue.list items).tokens =
      [.opens .list] ++ JsonValue.itemTokens true items := by
    cases items with
    | nil => simp [JsonValue.itemTokens, JsonValue.tokens, JsonValue.moreItems]
    | cons item items => simp [JsonValue.itemTokens, JsonValue.tokens]
  rw [htokens, reads_append_iff]
  constructor
  · rintro ⟨mid, hopens, hmore⟩
    obtain ⟨hfirst, rfl⟩ := (reads_char_iff rfl).mp hopens
    exact ⟨hfirst, hmore⟩
  · rintro ⟨hfirst, hmore⟩
    exact ⟨_, (reads_char_iff rfl).mpr ⟨hfirst, rfl⟩, hmore⟩

/-! ## One document -/

theorem readPayload_list {rest : List Char} (hrest : c.skipBlank.rest = '[' :: rest) :
    c.readPayload = readItems true {} PayloadField.all (c.skipBlank.shift 1) := by
  simp only [readPayload, hrest, readItems]
  cases readElements true {} PayloadField.all (c.skipBlank.shift 1) <;> rfl

theorem readPayload_object {rest : List Char} (hrest : c.skipBlank.rest = '\x7b' :: rest) :
    c.readPayload = readMembers true {} (c.skipBlank.shift 1) := by
  simp only [readPayload, hrest]

theorem toOption_readPayload_object (h : c.Reads (JsonValue.object members).tokens after) :
    c.readPayload.toOption =
      (members.foldlM PayloadDraft.absorb? {}).map fun d => (d, after) := by
  obtain ⟨⟨rest, hrest⟩, hmembers⟩ := reads_object_iff.mp h
  rw [readPayload_object hrest, toOption_readMembers hmembers]

theorem toOption_readPayload_list (h : c.Reads (JsonValue.list items).tokens after) :
    c.readPayload.toOption =
      (PayloadDraft.fill? {} PayloadField.all items).map fun d => (d, after) := by
  obtain ⟨⟨rest, hrest⟩, hitems⟩ := reads_list_iff.mp h
  rw [readPayload_list hrest, toOption_readItems hitems]

/-- What is read as a document is an object or a list. -/
theorem of_readPayload (h : c.readPayload = .ok (d, after)) :
    (∃ members, c.Reads (JsonValue.object members).tokens after) ∨
      ∃ items, c.Reads (JsonValue.list items).tokens after := by
  cases hrest : c.skipBlank.rest with
  | nil => simp only [readPayload, hrest] at h; cases h
  | cons x rest =>
      by_cases hlist : x = '['
      · subst hlist
        rw [readPayload_list hrest] at h
        obtain ⟨items, hitems⟩ := exists_items_of_readItems h
        exact .inr ⟨items, reads_list_iff.mpr ⟨⟨rest, hrest⟩, hitems⟩⟩
      · by_cases hobject : x = '\x7b'
        · subst hobject
          rw [readPayload_object hrest] at h
          obtain ⟨members, hmembers⟩ := exists_members_of_readMembers h
          exact .inl ⟨members, reads_object_iff.mpr ⟨⟨rest, hrest⟩, hmembers⟩⟩
        · simp only [readPayload, hrest] at h
          split at h
          · next heq => cases heq
          · next heq => exact absurd (List.cons.inj heq).1 hlist
          · next heq => exact absurd (List.cons.inj heq).1 hobject
          · cases h

end Cursor

/-! ## Whole texts -/

namespace Payload

variable {stdout : String} {v : JsonValue} {members : List JsonMember} {items : List JsonValue}
  {p : Payload}

/-- The cursor at the trimmed text. -/
def start (stdout : String) : Cursor :=
  Cursor.ofString (Text.trimmed stdout)

theorem rest_start (stdout : String) : (start stdout).rest = Text.trim stdout.toList := by
  rw [start, Cursor.ofString, Text.trimmed, String.toList_ofList]

/-- A text of a value is read up to the blanks at its end. -/
theorem isSpelledBy_trim_iff : v.IsSpelledBy (Text.trim stdout.toList) ↔
    ∃ after, (start stdout).Reads v.tokens after ∧ after.skipBlank.rest = [] := by
  rw [← rest_start]
  constructor
  · rintro ⟨spelled, blank, hspells, hblank, heq⟩
    obtain ⟨after, hspelled, hafter⟩ := Cursor.exists_passes heq
    refine ⟨after, Cursor.reads_iff.mpr ⟨spelled, hspells, hspelled⟩, ?_⟩
    obtain ⟨last, hlast, hrest⟩ := Cursor.exists_passes (hafter.trans (List.append_nil blank).symm)
    have hskip : after.skipBlank = last :=
      Cursor.skip_of_passes hlast hblank (by rw [Cursor.endsRun_iff, hrest]; rfl)
    rw [hskip, hrest]
  · rintro ⟨after, hreads, hrest⟩
    obtain ⟨spelled, hspells, hspelled⟩ := Cursor.reads_iff.mp hreads
    refine ⟨spelled, _, hspells, Cursor.forall_mem_run Cursor.isJsonBlank after, ?_⟩
    rw [hspelled.rest_eq, (Cursor.passes_skip Cursor.isJsonBlank after).rest_eq,
      show (after.skip Cursor.isJsonBlank).rest = [] from hrest, List.append_nil]

theorem parse_eq_ok_iff_readPayload : parse stdout = .ok p ↔
    ∃ d after, (start stdout).readPayload = .ok (d, after) ∧ after.skipBlank.rest = [] ∧
      d.finish = p := by
  unfold parse
  rw [← start]
  constructor
  · intro h
    split at h
    · cases h
    · next d after hread =>
        simp only at h
        split at h
        · next hrest => exact ⟨d, after, hread, hrest, Except.ok.inj h⟩
        · cases h
  · rintro ⟨d, after, hread, hrest, rfl⟩
    simp only [hread, hrest]

theorem parse_eq_ok_iff_of_reads {after : Cursor} {made : Option PayloadDraft}
    (hend : after.skipBlank.rest = [])
    (hread : (start stdout).readPayload.toOption = made.map fun d => (d, after)) :
    parse stdout = .ok p ↔ made.map PayloadDraft.finish = some p := by
  rw [parse_eq_ok_iff_readPayload]
  constructor
  · rintro ⟨d, last, hok, -, rfl⟩
    rw [hok] at hread
    obtain ⟨d', hmade, heq⟩ := Option.map_eq_some_iff.mp hread.symm
    rw [hmade, (Prod.mk.inj heq).1]
    rfl
  · intro hmade
    obtain ⟨d, rfl, rfl⟩ := Option.map_eq_some_iff.mp hmade
    exact ⟨d, after, Cursor.toOption_eq_some_iff.mp hread, hend, rfl⟩

/-- An object is the verdict that its members make. -/
theorem parse_object_iff (h : (JsonValue.object members).IsSpelledBy (Text.trim stdout.toList)) :
    parse stdout = .ok p ↔ p.IsOfObject members := by
  obtain ⟨after, hreads, hend⟩ := isSpelledBy_trim_iff.mp h
  rw [parse_eq_ok_iff_of_reads hend (Cursor.toOption_readPayload_object hreads),
    PayloadDraft.finish_foldlM_absorb?_iff]

/-- A list is the verdict that its items make. -/
theorem parse_list_iff (h : (JsonValue.list items).IsSpelledBy (Text.trim stdout.toList)) :
    parse stdout = .ok p ↔ p.IsOfList items := by
  obtain ⟨after, hreads, hend⟩ := isSpelledBy_trim_iff.mp h
  rw [parse_eq_ok_iff_of_reads hend (Cursor.toOption_readPayload_list hreads),
    PayloadDraft.finish_fill?_iff]

/-- What is decoded is an object or a list. -/
theorem of_parse (h : parse stdout = .ok p) :
    (∃ members, (JsonValue.object members).IsSpelledBy (Text.trim stdout.toList)) ∨
      ∃ items, (JsonValue.list items).IsSpelledBy (Text.trim stdout.toList) := by
  obtain ⟨d, after, hread, hend, -⟩ := parse_eq_ok_iff_readPayload.mp h
  obtain ⟨members, hmembers⟩ | ⟨items, hitems⟩ := Cursor.of_readPayload hread
  · exact .inl ⟨members, isSpelledBy_trim_iff.mpr ⟨after, hmembers, hend⟩⟩
  · exact .inr ⟨items, isSpelledBy_trim_iff.mpr ⟨after, hitems, hend⟩⟩

/-- Whether a text is the documented form of a payload: an object and nothing else. -/
def IsWrittenAs (p : Payload) (text : List Char) : Prop :=
  ∃ members, (JsonValue.object members).IsSpelledBy text ∧ p.IsOfObject members

/-- Whether a text is a list of the field values of a payload, in their order. -/
def IsListedAs (p : Payload) (text : List Char) : Prop :=
  ∃ items, (JsonValue.list items).IsSpelledBy text ∧ p.IsOfList items

/-- What is decoded is written in one of the two ways. -/
theorem parse_eq_ok_iff_isWrittenAs : parse stdout = .ok p ↔
    p.IsWrittenAs (Text.trim stdout.toList) ∨ p.IsListedAs (Text.trim stdout.toList) := by
  constructor
  · intro h
    obtain ⟨members, hmembers⟩ | ⟨items, hitems⟩ := of_parse h
    · exact .inl ⟨members, hmembers, (parse_object_iff hmembers).mp h⟩
    · exact .inr ⟨items, hitems, (parse_list_iff hitems).mp h⟩
  · rintro (⟨members, hmembers, hp⟩ | ⟨items, hitems, hp⟩)
    · exact (parse_object_iff hmembers).mpr hp
    · exact (parse_list_iff hitems).mpr hp

theorem isBlank_of_isJsonBlank {c : Char} (h : Cursor.isJsonBlank c = true) :
    Text.isBlank c = true := by
  simp only [Cursor.isJsonBlank, Bool.or_eq_true, beq_iff_eq] at h
  rcases h with ((rfl | rfl) | rfl) | rfl <;> decide

theorem endsRun_start (stdout : String) : (start stdout).EndsRun Cursor.isJsonBlank := by
  intro c hc
  rw [rest_start] at hc
  have hfirst := Text.not_isBlank_head_trim hc
  cases hblank : Cursor.isJsonBlank c with
  | false => rfl
  | true => exact (isBlank_of_isJsonBlank hblank).symm.trans hfirst

/-- The first character tells a list from an object. -/
theorem head?_of_isListedAs (h : p.IsListedAs (Text.trim stdout.toList)) :
    (Text.trim stdout.toList).head? = some '[' := by
  obtain ⟨items, hitems, -⟩ := h
  obtain ⟨after, hreads, -⟩ := isSpelledBy_trim_iff.mp hitems
  obtain ⟨⟨rest, hrest⟩, -⟩ := Cursor.reads_list_iff.mp hreads
  rw [Cursor.skipBlank_of_endsRun (endsRun_start stdout), rest_start] at hrest
  rw [hrest]
  rfl

theorem head?_of_isWrittenAs (h : p.IsWrittenAs (Text.trim stdout.toList)) :
    (Text.trim stdout.toList).head? = some '\x7b' := by
  obtain ⟨members, hmembers, -⟩ := h
  obtain ⟨after, hreads, -⟩ := isSpelledBy_trim_iff.mp hmembers
  obtain ⟨⟨rest, hrest⟩, -⟩ := Cursor.reads_object_iff.mp hreads
  rw [Cursor.skipBlank_of_endsRun (endsRun_start stdout), rest_start] at hrest
  rw [hrest]
  rfl

/-- A text that does not begin like a list is decoded exactly if it is a documented
verdict, to the payload that it is the form of, and is a failure otherwise. A text that
begins like a list is decoded as well, if its items are the values of the fields in
their order: no check keeps it from being a verdict. -/
theorem parse_accepts_iff (stdout : String) :
    ((Text.trim stdout.toList).head? ≠ some '[' →
      (∀ p, parse stdout = .ok p ↔ p.IsWrittenAs (Text.trim stdout.toList)) ∧
        ((¬∃ p, IsWrittenAs p (Text.trim stdout.toList)) →
          ∃ message, Outcome.ofOutput stdout = .failed (.decode message))) ∧
    ((Text.trim stdout.toList).head? = some '[' →
      (∀ p, parse stdout = .ok p ↔ p.IsListedAs (Text.trim stdout.toList)) ∧
        ((¬∃ p, IsListedAs p (Text.trim stdout.toList)) →
          ∃ message, Outcome.ofOutput stdout = .failed (.decode message))) := by
  have hfailure : (¬∃ p, parse stdout = .ok p) →
      ∃ message, Outcome.ofOutput stdout = .failed (.decode message) := by
    intro hnone
    unfold Outcome.ofOutput
    cases hparse : parse stdout with
    | error e => exact ⟨e.message, rfl⟩
    | ok p => exact absurd ⟨p, hparse⟩ hnone
  constructor
  · intro hobject
    have hwritten : ∀ p, parse stdout = .ok p ↔ p.IsWrittenAs (Text.trim stdout.toList) :=
      fun p => parse_eq_ok_iff_isWrittenAs.trans
        (or_iff_left fun hlisted => hobject (head?_of_isListedAs hlisted))
    refine ⟨hwritten, fun hnone => hfailure fun ⟨p, hp⟩ => hnone ⟨p, (hwritten p).mp hp⟩⟩
  · intro hlist
    have hlisted : ∀ p, parse stdout = .ok p ↔ p.IsListedAs (Text.trim stdout.toList) :=
      fun p => parse_eq_ok_iff_isWrittenAs.trans (or_iff_right fun hwritten => by
        rw [head?_of_isWrittenAs hwritten] at hlist
        cases hlist)
    refine ⟨hlisted, fun hnone => hfailure fun ⟨p, hp⟩ => hnone ⟨p, (hlisted p).mp hp⟩⟩

/-- The empty list is decoded: no write, no error. -/
theorem parse_accepts_iff_empty_list :
    parse "[]" = .ok {} ∧ Outcome.ofOutput "[]" = .analyzed false none := by
  have hspelled : (JsonValue.list []).IsSpelledBy (Text.trim "[]".toList) := by
    refine ⟨['[', ']'], [], ?_, nofun, by decide⟩
    rw [JsonValue.tokens]
    exact (Spells.singleton (.opens .list)).append (.singleton (.closes .list))
  have hlisted : ({} : Payload).IsListedAs (Text.trim "[]".toList) := by
    refine ⟨[], hspelled, Nat.zero_le _, fun field => ?_⟩
    cases field <;> rfl
  have hparse := (((parse_accepts_iff "[]").2 (by decide)).1 {}).mpr hlisted
  exact ⟨hparse, by rw [Outcome.ofOutput, hparse]; rfl⟩

end Payload

end RaceSkeletons
