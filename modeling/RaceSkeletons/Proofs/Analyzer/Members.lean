import RaceSkeletons.Proofs.Analyzer.Fields

/-!
# Reading the members of an object

The loop over the members of an object does with the values what they say, one after
the other (`Cursor.toOption_readMembers`), and a text that it reads is an object
(`Cursor.exists_members_of_readMembers`).
-/

namespace RaceSkeletons

/-- The tokens of an object behind its bracket, or behind one of its members. -/
def JsonValue.memberTokens : (isFirst : Bool) → List JsonMember → List JsonToken
  | true, (key, value) :: members => .string key :: .colon :: value.tokens ++ moreMembers members
  | _, members => moreMembers members

namespace JsonValue

theorem memberTokens_nil (isFirst : Bool) : memberTokens isFirst [] = [.closes .object] := by
  cases isFirst <;> simp [memberTokens, moreMembers]

theorem memberTokens_cons (isFirst : Bool) (m : JsonMember) (members : List JsonMember) :
    memberTokens isFirst (m :: members) = (if isFirst then [] else [.comma]) ++ [.string m.1] ++
      (.colon :: m.2.tokens ++ memberTokens false members) := by
  cases isFirst <;> simp [memberTokens, moreMembers]

end JsonValue

namespace Cursor

variable {c mid next after : Cursor} {pieces : List StringPiece} {v : JsonValue}
  {members : List JsonMember} {isFirst : Bool} {d d' : PayloadDraft} {tokens : List JsonToken}

/-! ## Where a member may follow -/

theorem nextMember_closes (h : c.Reads [.closes .object] after) :
    nextMember isFirst c = .ok (.finished after) := by
  obtain ⟨⟨rest, hrest⟩, hshift⟩ := (reads_char_iff rfl).mp h
  simp only [nextMember, hrest, Container.closing, if_true, hshift]

/-- The key of a member that may follow. -/
theorem nextMember_key
    (h : c.Reads ((if isFirst then [] else [.comma]) ++ [.string pieces]) after) :
    ∃ start, nextMember isFirst c = .ok (.key start) ∧
      start.Passes (pieces.flatMap StringPiece.text ++ ['"']) after := by
  cases isFirst with
  | true =>
      obtain ⟨⟨rest, hrest⟩, hpieces⟩ := passes_cons_iff.mp (reads_singleton_iff.mp h)
      refine ⟨_, ?_, hpieces⟩
      simp only [nextMember, hrest, if_true]
      rfl
  | false =>
      obtain ⟨mid, hcomma, hstring⟩ := reads_append_iff.mp h
      obtain ⟨⟨rest, hrest⟩, rfl⟩ := (reads_char_iff rfl).mp hcomma
      obtain ⟨⟨rest', hrest'⟩, hpieces⟩ := passes_cons_iff.mp (reads_singleton_iff.mp hstring)
      refine ⟨_, ?_, hpieces⟩
      simp only [nextMember, hrest, hrest']
      rfl

theorem of_nextMember_finished (h : nextMember isFirst c = .ok (.finished after)) :
    c.Reads [.closes .object] after := by
  rw [nextMember] at h
  split at h
  · cases h
  · next x rest hrest =>
      split at h
      · next hx =>
          obtain rfl := MemberPoint.finished.inj (Except.ok.inj h)
          exact (reads_char_iff rfl).mpr ⟨⟨rest, by rw [hrest, hx]; rfl⟩, rfl⟩
      · split at h
        · split at h <;> cases h
        · split at h
          · simp only at h
            split at h
            · cases h
            · split at h
              · cases h
              · split at h <;> cases h
          · cases h

theorem of_nextMember_key (h : nextMember isFirst c = .ok (.key mid))
    (hkey : mid.Passes (pieces.flatMap StringPiece.text ++ ['"']) after) :
    c.Reads ((if isFirst then [] else [.comma]) ++ [.string pieces]) after := by
  rw [nextMember] at h
  split at h
  · cases h
  · next x rest hrest =>
      split at h
      · cases h
      · split at h
        · next hfirst =>
            split at h
            · next hx =>
                obtain rfl := MemberPoint.key.inj (Except.ok.inj h)
                rw [if_pos hfirst]
                exact reads_singleton (.cons (hx ▸ hrest) hkey)
            · cases h
        · next hfirst =>
            split at h
            · next hcomma =>
                simp only at h
                split at h
                · cases h
                · next y rest' hrest' =>
                    split at h
                    · next hy =>
                        obtain rfl := MemberPoint.key.inj (Except.ok.inj h)
                        rw [if_neg hfirst]
                        have hfollows : c.Reads [.comma] (c.skipBlank.shift 1) :=
                          (reads_char_iff rfl).mpr ⟨⟨rest, hcomma ▸ hrest⟩, rfl⟩
                        exact hfollows.append (reads_singleton (.cons (hy ▸ hrest') hkey))
                    · split at h <;> cases h
            · cases h

/-! ## One member -/

theorem toOption_readMember (d : PayloadDraft)
    (hkey : c.Passes (pieces.flatMap StringPiece.text ++ ['"']) mid)
    (hvalue : mid.Reads (.colon :: v.tokens) after) (hend : after.EndsNumber) :
    (readMember d c).toOption = (d.absorb? (pieces, v)).map fun d => (d, after) := by
  obtain ⟨start, hcolon, hv⟩ := reads_token_iff.mp hvalue
  have hstring := toOption_readString hkey
  unfold readMember PayloadDraft.absorb? JsonMember.key?
  cases hdecode : StringPiece.decode pieces with
  | none =>
      rw [hdecode] at hstring
      cases hread : c.readString with
      | error e => rfl
      | ok r => rw [hread] at hstring; cases hstring
  | some s =>
      rw [hdecode] at hstring
      have hread : c.readString = .ok (s, mid) := toOption_eq_some_iff.mp hstring
      simp only [hread, Option.map_some, Option.bind_some, readColon_eq_ok_iff.mpr hcolon]
      cases hfield : PayloadField.ofKey? (String.ofList s) with
      | none =>
          simp only [skipValue_of_reads hv hend]
          rfl
      | some field =>
          simp only [PayloadDraft.take?]
          split
          · rfl
          · exact toOption_readField d field hv hend

theorem exists_member_of_readMember (h : readMember d c = .ok (d', after)) :
    ∃ (m : JsonMember) (mid : Cursor), c.Passes (m.1.flatMap StringPiece.text ++ ['"']) mid ∧
      mid.Reads (.colon :: m.2.tokens) after := by
  unfold readMember at h
  split at h
  · cases h
  · next key mid hstring =>
      obtain ⟨pieces, hpieces⟩ := exists_pieces_of_readString hstring
      have hmember : ∀ {start}, mid.readColon = .ok start →
          (∃ v : JsonValue, start.Reads v.tokens after) →
          ∃ (m : JsonMember) (mid : Cursor), c.Passes (m.1.flatMap StringPiece.text ++ ['"']) mid ∧
            mid.Reads (.colon :: m.2.tokens) after := by
        rintro start hcolon ⟨v, hv⟩
        exact ⟨(pieces, v), mid, hpieces, (readColon_eq_ok_iff.mp hcolon).append hv⟩
      split at h
      · split at h
        · cases h
        · next start hcolon =>
            cases hskip : start.skipValue with
            | error e => rw [hskip] at h; cases h
            | ok last =>
                rw [hskip] at h
                obtain ⟨-, rfl⟩ := Prod.mk.inj (Except.ok.inj h)
                exact hmember hcolon (exists_value_of_skipValue hskip)
      · split at h
        · cases h
        · split at h
          · cases h
          · next hcolon => exact hmember hcolon (exists_value_of_readField h)

/-! ## All members -/

theorem readMembers_finished (h : nextMember isFirst c = .ok (.finished after)) :
    readMembers isFirst d c = .ok (d, after) := by
  rw [readMembers.eq_def]
  split
  · next herror => rw [h] at herror; cases herror
  · next hok =>
      rw [h] at hok
      obtain rfl := MemberPoint.finished.inj (Except.ok.inj hok)
      rfl
  · next hok => rw [h] at hok; cases hok

theorem toOption_readMembers_key (h : nextMember isFirst c = .ok (.key mid)) :
    (readMembers isFirst d c).toOption = (readMember d mid).toOption.bind fun r =>
      (readMembers false r.1 r.2).toOption := by
  rw [readMembers.eq_def]
  split
  · next herror => rw [h] at herror; cases herror
  · next hok => rw [h] at hok; cases hok
  · next hok =>
      rw [h] at hok
      obtain rfl := MemberPoint.key.inj (Except.ok.inj hok)
      split
      · next herror => rw [herror]; rfl
      · next hmember => simp only [hmember]; rfl

/-- What the loop over the members makes of them. -/
theorem toOption_readMembers (h : c.Reads (JsonValue.memberTokens isFirst members) after) :
    (readMembers isFirst d c).toOption =
      (members.foldlM PayloadDraft.absorb? d).map fun d => (d, after) := by
  induction members generalizing isFirst d c with
  | nil =>
      have hcloses : c.Reads [.closes .object] after := by
        rwa [JsonValue.memberTokens_nil] at h
      rw [readMembers_finished (nextMember_closes hcloses)]
      rfl
  | cons m members ih =>
      obtain ⟨pieces, v⟩ := m
      rw [JsonValue.memberTokens_cons, reads_append_iff] at h
      obtain ⟨next, hkey, hmore⟩ := h
      obtain ⟨last, hvalue, hmore⟩ := reads_append_iff.mp hmore
      obtain ⟨start, hnext, hkey⟩ := nextMember_key hkey
      have hend : last.EndsNumber := hmore.endsNumber_of_moreMembers
      rw [toOption_readMembers_key hnext, toOption_readMember d hkey hvalue hend,
        List.foldlM_cons, Option.bind_map, Option.bind_eq_bind, Option.map_bind]
      exact congrArg _ (funext fun d => ih hmore)

/-- What the loop over the members reads are members. -/
theorem exists_members_of_readMembers (h : readMembers isFirst d c = .ok (d', after)) :
    ∃ members, c.Reads (JsonValue.memberTokens isFirst members) after := by
  fun_induction readMembers isFirst d c with
  | case1 => cases h
  | case2 isFirst d c last hnext =>
      obtain ⟨-, rfl⟩ := Prod.mk.inj (Except.ok.inj h)
      exact ⟨[], by rw [JsonValue.memberTokens_nil]; exact of_nextMember_finished hnext⟩
  | case3 => cases h
  | case4 isFirst d c start hnext d₁ mid hmember _ ih =>
      obtain ⟨m, next, hkey, hvalue⟩ := exists_member_of_readMember hmember
      obtain ⟨members, hmembers⟩ := ih h
      refine ⟨m :: members, ?_⟩
      rw [JsonValue.memberTokens_cons]
      exact (of_nextMember_key hnext hkey).append (hvalue.append hmembers)

end Cursor

end RaceSkeletons
