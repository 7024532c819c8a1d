import RaceSkeletons.Analyzer.PayloadReader

/-!
# Decoding the analyzer's output

The whole output, trimmed, must be one verdict document. `Payload.parse` is
the reader that the run uses, `Outcome.ofOutput` what its answer means for
the fragment.
-/

namespace RaceSkeletons

namespace Cursor

theorem size_readText {c after : Cursor} {s : String} (h : c.readText = .ok (s, after)) :
    after.size ≤ c.size := by
  unfold readText at h
  simp only at h
  have hb := size_skipBlank_le c
  split at h
  · cases h
  · cases hr : (c.skipBlank.shift 1).readString with
    | error e => rw [hr] at h; cases h
    | ok r =>
      rw [hr] at h
      cases h
      have := size_readString (s := r.1) hr
      simp only [size_shift] at this
      omega
  · cases h

theorem size_map_letters {α : Type} {c after : Cursor} {letters : List Char} {x y : α}
    (h : (c.readLetters letters).map (fun after => (x, after)) = .ok (y, after)) :
    after.size ≤ c.size := by
  cases hr : c.readLetters letters with
  | error e => rw [hr] at h; cases h
  | ok r => rw [hr] at h; cases h; exact size_readLetters hr

theorem size_readBool {c after : Cursor} {b : Bool} (h : c.readBool = .ok (b, after)) :
    after.size ≤ c.size := by
  unfold readBool at h
  simp only at h
  have hb := size_skipBlank_le c
  split at h
  · cases h
  · have := size_map_letters h
    simp only [size_shift] at this
    omega
  · have := size_map_letters h
    simp only [size_shift] at this
    omega
  · cases h

theorem size_readNatural {c after : Cursor} {n : Nat} (h : c.readNatural = .ok (n, after)) :
    after.size ≤ c.size := by
  have hnatural {r : Reading NumberToken} (hr : readNatural.natural r = .ok (n, after)) :
      ∃ t, r = .ok (t, after) := by
    unfold readNatural.natural at hr
    split at hr <;> cases hr
    exact ⟨_, rfl⟩
  unfold readNatural at h
  simp only at h
  have hb := size_skipBlank_le c
  split at h
  · cases h
  · split at h
    · obtain ⟨t, ht⟩ := hnatural h
      have := size_readNumber ht
      simp only [size_shift] at this
      omega
    · split at h
      · obtain ⟨t, ht⟩ := hnatural h
        exact Nat.le_trans (size_readNumber ht) hb
      · cases h

theorem size_readOptional {α : Type} {read : Cursor → Reading α}
    (hread : ∀ {c after : Cursor} {a : α}, read c = .ok (a, after) → after.size ≤ c.size)
    {c after : Cursor} {a : Option α} (h : c.readOptional read = .ok (a, after)) :
    after.size ≤ c.size := by
  unfold readOptional at h
  simp only at h
  have hb := size_skipBlank_le c
  split at h
  · have := size_map_letters h
    simp only [size_shift] at this
    omega
  · cases hr : read c.skipBlank with
    | error e => rw [hr] at h; cases h
    | ok r =>
      rw [hr] at h
      cases h
      exact Nat.le_trans (hread (a := r.1) hr) hb

theorem size_map_field {α : Type} {r : Reading α} {f : α × Cursor → PayloadDraft}
    {d : PayloadDraft} {after : Cursor} (h : r.map (fun x => (f x, x.2)) = .ok (d, after)) :
    ∃ a, r = .ok (a, after) := by
  cases r with
  | error e => cases h
  | ok x => cases h; exact ⟨x.1, rfl⟩

theorem size_readField {d d' : PayloadDraft} {field : PayloadField} {c after : Cursor}
    (h : readField d field c = .ok (d', after)) : after.size ≤ c.size := by
  cases field <;> obtain ⟨a, ha⟩ := size_map_field h
  · exact size_readText ha
  · exact size_readBool ha
  · exact size_readOptional size_readNatural ha
  · exact size_readOptional size_readText ha
  · exact size_readOptional size_readText ha

theorem size_readMember {d d' : PayloadDraft} {c after : Cursor}
    (h : readMember d c = .ok (d', after)) : after.size ≤ c.size := by
  unfold readMember at h
  split at h
  · cases h
  · next hs =>
    have h1 := size_readString hs
    split at h
    · split at h
      · cases h
      · next hc =>
        have h2 := size_readColon hc
        rename_i c'
        cases hv : c'.skipValue with
        | error e => rw [hv] at h; cases h
        | ok r =>
          rw [hv] at h
          cases h
          have h3 := size_skipValue hv
          omega
    · split at h
      · cases h
      · split at h
        · cases h
        · next hc =>
          have h2 := size_readColon hc
          have h3 := size_readField h
          omega

theorem size_nextMember {isFirst : Bool} {c after : Cursor}
    (h : nextMember isFirst c = .ok (.key after)) : after.size < c.size := by
  unfold nextMember at h
  simp only at h
  have hb := size_skipBlank_le c
  split at h
  · cases h
  · next hrest =>
    have hpos : 0 < c.skipBlank.size := size_pos hrest
    split at h
    · cases h
    · split at h
      · split at h
        · cases h
          simp only [size_shift]
          omega
        · cases h
      · split at h
        · have hb' := size_skipBlank_le (c.skipBlank.shift 1)
          simp only [size_shift] at hb'
          split at h
          · cases h
          · split at h
            · cases h
              simp only [size_shift]
              omega
            · split at h <;> cases h
        · cases h

def readMembers (isFirst : Bool) (d : PayloadDraft) (c : Cursor) : Reading PayloadDraft :=
  match hn : nextMember isFirst c with
  | .error e => .error e
  | .ok (.finished after) => .ok (d, after)
  | .ok (.key behindQuote) =>
    match hm : readMember d behindQuote with
    | .error e => .error e
    | .ok (d', after) =>
      have : after.size < c.size := Nat.lt_of_le_of_lt (size_readMember hm) (size_nextMember hn)
      readMembers false d' after
termination_by c.size

/-- Reads the elements of a list as the values of the given fields, until
either runs out. -/
def readElements (isFirst : Bool) (d : PayloadDraft) :
    List PayloadField → Cursor → Reading PayloadDraft
  | [], c => .ok (d, c)
  | field :: fields, c =>
    let c := c.skipBlank
    match c.rest with
    | [] => c.faultHere .endInList
    | x :: _ =>
      if x = ']' then .ok (d, c)
      else if isFirst then
        match readField d field c with
        | .error e => .error e
        | .ok (d, c) => readElements false d fields c
      else if x = ',' then
        let c := (c.shift 1).skipBlank
        match c.rest with
        | [] => c.faultHere .endInValue
        | y :: _ =>
          if y = ']' then c.faultAhead .trailingComma
          else
            match readField d field c with
            | .error e => .error e
            | .ok (d, c) => readElements false d fields c
      else c.faultAhead .expectedListEnd

/-- Reads the end of a list whose elements have been read. -/
def readListEnd (c : Cursor) : Except PayloadError Cursor :=
  let c := c.skipBlank
  match c.rest with
  | [] => c.faultHere .endInList
  | x :: _ =>
    if x = ']' then .ok (c.shift 1)
    else if x = ',' then
      let c := (c.shift 1).skipBlank
      if c.rest.head? = some ']' then c.faultAhead .trailingComma
      else c.faultAhead .trailingCharacters
    else c.faultAhead .trailingCharacters

/-- Reads a document, as an object or as a list. -/
def readPayload (c : Cursor) : Reading PayloadDraft :=
  let c := c.skipBlank
  match c.rest with
  | [] => c.faultHere .endInValue
  | '[' :: _ =>
    match readElements true {} PayloadField.all (c.shift 1) with
    | .error e => .error e
    | .ok (d, c) => c.readListEnd.map fun after => (d, after)
  | '\x7b' :: _ => readMembers true {} (c.shift 1)
  | _ => .error (c.mismatch "struct AnalyzerPayload")

end Cursor

/-- Reads the analyzer's output as a verdict document. -/
def Payload.parse (stdout : String) : Except PayloadError Payload :=
  match (Cursor.ofString (Text.trimmed stdout)).readPayload with
  | .error e => .error e
  | .ok (d, c) =>
    let c := c.skipBlank
    match c.rest with
    | [] => .ok d.finish
    | _ :: _ => c.faultAhead .trailingCharacters

def Outcome.ofOutput (stdout : String) : Outcome :=
  match Payload.parse stdout with
  | .error e => .failed (.decode e.message)
  | .ok payload => payload.toOutcome

end RaceSkeletons
