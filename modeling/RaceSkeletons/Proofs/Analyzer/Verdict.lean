import RaceSkeletons.Proofs.Analyzer.JsonText
import RaceSkeletons.Analyzer.PayloadReader

/-!
# What a JSON value says as a verdict

A verdict document gives values to fields. What they say about a payload is a question
for each field on its own (`Payload.Accounts`): one value at most, of the right kind, and
the default if there is none. The reader goes through them in their order and keeps a
draft; that it ends with the same answer is `PayloadDraft.foldlM_take?_eq_some_iff`.
-/

namespace RaceSkeletons

namespace JsonValue

/-- The text that a value stands for, if it is a string. -/
def asText : JsonValue → Option String
  | string pieces => (StringPiece.decode pieces).map String.ofList
  | _ => none

def asBool : JsonValue → Option Bool
  | bool value => some value
  | _ => none

/-- The line number that a value stands for, if it is one. -/
def asNatural : JsonValue → Option Nat
  | number n => n.natural?
  | _ => none

/-- `null` stands for nothing, and any other value for what it is. -/
def asOptional {α : Type} (read : JsonValue → Option α) : JsonValue → Option (Option α)
  | null => some none
  | v => (read v).map some

end JsonValue

/-- A value that is given to a field. -/
abbrev FieldValue := PayloadField × JsonValue

namespace JsonMember

/-- The key of a member: none if it stands for no text. -/
def key? (m : JsonMember) : Option String :=
  (StringPiece.decode m.1).map String.ofList

/-- What a member gives to a field that the verdict knows. -/
def fieldValue? (m : JsonMember) : Option FieldValue :=
  (m.key?.bind PayloadField.ofKey?).map fun field => (field, m.2)

end JsonMember

/-- Whether a payload holds what a value says for a field. -/
def Payload.Holds (p : Payload) (v : JsonValue) : PayloadField → Prop
  | .file => v.asText = some p.file
  | .hasWrite => v.asBool = some p.hasWrite
  | .lineNumber => v.asOptional JsonValue.asNatural = some p.lineNumber
  | .lineContent => v.asOptional JsonValue.asText = some p.lineContent
  | .error => v.asOptional JsonValue.asText = some p.error

/-- Whether a payload has the default of a field. -/
def Payload.HasDefault (p : Payload) : PayloadField → Prop
  | .file => p.file = ""
  | .hasWrite => p.hasWrite = false
  | .lineNumber => p.lineNumber = none
  | .lineContent => p.lineContent = none
  | .error => p.error = none

/-- The values that are given to a field. -/
def valuesOf (field : PayloadField) (given : List FieldValue) : List JsonValue :=
  given.filterMap fun g => if g.1 = field then some g.2 else none

/-- Whether a payload is what the given values make: no field has two values, a field
with one value holds what it says, and every other field has its default. -/
def Payload.Accounts (p : Payload) (given : List FieldValue) : Prop :=
  ∀ field, match valuesOf field given with
    | [] => p.HasDefault field
    | [v] => p.Holds v field
    | _ => False

/-! ## Drafts -/

namespace PayloadDraft

variable {d d' : PayloadDraft} {v : JsonValue} {field other : PayloadField}

/-- The draft with the value of a field, if it is of the right kind. -/
def with? (d : PayloadDraft) (v : JsonValue) : PayloadField → Option PayloadDraft
  | .file => v.asText.map fun s => { d with file := some s }
  | .hasWrite => v.asBool.map fun b => { d with hasWrite := some b }
  | .lineNumber => (v.asOptional JsonValue.asNatural).map fun n => { d with lineNumber := some n }
  | .lineContent => (v.asOptional JsonValue.asText).map fun s => { d with lineContent := some s }
  | .error => (v.asOptional JsonValue.asText).map fun s => { d with error := some s }

/-- The draft with one more value, unless its field has one. -/
def take? (d : PayloadDraft) (g : FieldValue) : Option PayloadDraft :=
  if d.has g.1 then none else d.with? g.2 g.1

/-- Whether two drafts agree on a field. -/
def Agrees (d d' : PayloadDraft) : PayloadField → Prop
  | .file => d'.file = d.file
  | .hasWrite => d'.hasWrite = d.hasWrite
  | .lineNumber => d'.lineNumber = d.lineNumber
  | .lineContent => d'.lineContent = d.lineContent
  | .error => d'.error = d.error

/-- Whether a draft has what a value says for a field. -/
def Reads (d : PayloadDraft) (v : JsonValue) : PayloadField → Prop
  | .file => v.asText.map some = some d.file
  | .hasWrite => v.asBool.map some = some d.hasWrite
  | .lineNumber => (v.asOptional JsonValue.asNatural).map some = some d.lineNumber
  | .lineContent => (v.asOptional JsonValue.asText).map some = some d.lineContent
  | .error => (v.asOptional JsonValue.asText).map some = some d.error

theorem not_reads_of_with?_eq_none (h : d.with? v field = none) (d' : PayloadDraft) :
    ¬d'.Reads v field := by
  cases field <;> simp only [with?, Option.map_eq_none_iff] at h <;> simp [Reads, h]

theorem has_of_with?_eq_some (h : d.with? v field = some d') : d'.has field = true := by
  cases field <;> obtain ⟨x, -, rfl⟩ := Option.map_eq_some_iff.mp h <;> rfl

theorem reads_iff_of_with?_eq_some (h : d.with? v field = some d') (d'' : PayloadDraft) :
    d''.Reads v field ↔ d'.Agrees d'' field := by
  cases field <;> obtain ⟨x, hx, rfl⟩ := Option.map_eq_some_iff.mp h <;>
    simp [Reads, Agrees, hx, eq_comm]

/-- Only the field that is given a value changes. -/
theorem with?_other (h : d.with? v field = some d') (hother : other ≠ field) :
    d'.has other = d.has other ∧ ∀ d'', d'.Agrees d'' other ↔ d.Agrees d'' other := by
  cases field <;> obtain ⟨x, -, rfl⟩ := Option.map_eq_some_iff.mp h <;> cases other <;>
    first
    | exact absurd rfl hother
    | exact ⟨rfl, fun _ => Iff.rfl⟩

/-- Whether a draft comes from another one when values are given to a field. -/
def Takes (d d' : PayloadDraft) (field : PayloadField) : List JsonValue → Prop
  | [] => d.Agrees d' field
  | [v] => d.has field = false ∧ d'.Reads v field
  | _ => False

theorem eq_of_agrees (h : ∀ field, d.Agrees d' field) : d' = d := by
  have hfile := h .file
  have hwrite := h .hasWrite
  have hnumber := h .lineNumber
  have hcontent := h .lineContent
  have herror := h .error
  cases d
  cases d'
  simp only [Agrees] at hfile hwrite hnumber hcontent herror
  simp [hfile, hwrite, hnumber, hcontent, herror]

/-- Once a field has a value it takes no other. -/
theorem takes_of_has (h : d.has field = true) (values : List JsonValue) :
    d.Takes d' field values ↔ values = [] ∧ d.Agrees d' field := by
  match values with
  | [] => exact ⟨fun hagrees => ⟨rfl, hagrees⟩, And.right⟩
  | [v] =>
      constructor
      · rintro ⟨hnone, -⟩
        rw [h] at hnone
        cases hnone
      · rintro ⟨⟨⟩, -⟩
  | _ :: _ :: _ => exact ⟨nofun, nofun⟩

/-- A field that takes a first value takes no other. -/
theorem takes_cons_iff {values : List JsonValue} :
    d.Takes d' field (v :: values) ↔ d.has field = false ∧ d'.Reads v field ∧ values = [] := by
  cases values with
  | nil => exact ⟨fun h => ⟨h.1, h.2, rfl⟩, fun h => ⟨h.1, h.2.1⟩⟩
  | cons _ _ => exact ⟨nofun, nofun⟩

theorem takes_congr {d₁ : PayloadDraft} (hhas : d₁.has field = d.has field)
    (hagrees : d₁.Agrees d' field ↔ d.Agrees d' field) (values : List JsonValue) :
    d₁.Takes d' field values ↔ d.Takes d' field values := by
  match values with
  | [] => exact hagrees
  | [v] => unfold Takes; rw [hhas]
  | _ :: _ :: _ => exact Iff.rfl

/-- One value given first. -/
theorem take?_bind_iff {g : FieldValue} {values : PayloadField → List JsonValue} :
    (∃ d₁, d.take? g = some d₁ ∧ ∀ field, d₁.Takes d' field (values field)) ↔
      ∀ field, d.Takes d' field (if g.1 = field then g.2 :: values field else values field) := by
  obtain ⟨field, v⟩ := g
  have hother : ∀ {d₁}, d.with? v field = some d₁ → ∀ other, field ≠ other →
      (d₁.Takes d' other (values other) ↔ d.Takes d' other (values other)) := by
    intro d₁ hd₁ other hne
    obtain ⟨hhas, hagrees⟩ := with?_other hd₁ hne.symm
    exact takes_congr hhas (hagrees d') _
  constructor
  · rintro ⟨d₁, htake, htakes⟩ other
    unfold take? at htake
    split at htake
    · cases htake
    · next hhas =>
        have hhas : d.has field = false := Bool.eq_false_iff.mpr hhas
        by_cases hfield : field = other
        · subst hfield
          obtain ⟨hnil, hagrees⟩ := (takes_of_has (has_of_with?_eq_some htake) _).mp (htakes field)
          rw [if_pos rfl, takes_cons_iff]
          exact ⟨hhas, (reads_iff_of_with?_eq_some htake d').mpr hagrees, hnil⟩
        · rw [if_neg hfield]
          exact (hother htake other hfield).mp (htakes other)
  · intro h
    have hown := h field
    rw [if_pos rfl, takes_cons_iff] at hown
    obtain ⟨hhas, hreads, hnil⟩ := hown
    cases hd₁ : d.with? v field with
    | none => exact absurd hreads (not_reads_of_with?_eq_none hd₁ d')
    | some d₁ =>
        refine ⟨d₁, by simp [take?, hhas, hd₁], fun other => ?_⟩
        by_cases hfield : field = other
        · subst hfield
          rw [takes_of_has (has_of_with?_eq_some hd₁)]
          exact ⟨hnil, (reads_iff_of_with?_eq_some hd₁ d').mp hreads⟩
        · have htakes := h other
          rw [if_neg hfield] at htakes
          exact (hother hd₁ other hfield).mpr htakes

/-- The values are taken one after the other exactly if every field takes its own. -/
theorem foldlM_take?_eq_some_iff {given : List FieldValue} :
    given.foldlM take? d = some d' ↔ ∀ field, d.Takes d' field (valuesOf field given) := by
  induction given generalizing d with
  | nil =>
      constructor
      · intro h field
        obtain rfl := Option.some.inj h
        cases field <;> rfl
      · intro h
        exact congrArg some (eq_of_agrees h).symm
  | cons g given ih =>
      have hvalues : ∀ field, valuesOf field (g :: given) =
          if g.1 = field then g.2 :: valuesOf field given else valuesOf field given := by
        intro field
        unfold valuesOf
        by_cases hfield : g.1 = field <;> simp [hfield]
      simp only [List.foldlM_cons, Option.bind_eq_bind, Option.bind_eq_some_iff, ih, hvalues,
        take?_bind_iff]

/-! ## Finished drafts -/

theorem hasDefault_finish (h : ({} : PayloadDraft).Agrees d field) :
    d.finish.HasDefault field := by
  cases field <;> simp only [Agrees] at h <;> simp [finish, Payload.HasDefault, h]

theorem holds_finish (h : d.Reads v field) : d.finish.Holds v field := by
  cases field <;> obtain ⟨x, hx, hslot⟩ := Option.map_eq_some_iff.mp h <;>
    simp [finish, Payload.Holds, hx, ← hslot]

/-- The draft of a payload, with the fields that values were given to. -/
def ofPayload (p : Payload) (given : List FieldValue) : PayloadDraft where
  file := if valuesOf .file given = [] then none else some p.file
  hasWrite := if valuesOf .hasWrite given = [] then none else some p.hasWrite
  lineNumber := if valuesOf .lineNumber given = [] then none else some p.lineNumber
  lineContent := if valuesOf .lineContent given = [] then none else some p.lineContent
  error := if valuesOf .error given = [] then none else some p.error

variable {p : Payload} {given : List FieldValue}

theorem agrees_ofPayload (h : valuesOf field given = []) :
    ({} : PayloadDraft).Agrees (ofPayload p given) field := by
  cases field <;> exact if_pos h

theorem reads_ofPayload (h : valuesOf field given = [v]) (hholds : p.Holds v field) :
    (ofPayload p given).Reads v field := by
  cases field <;> simp only [Payload.Holds] at hholds <;> simp [Reads, ofPayload, h, hholds]

theorem takes_ofPayload (h : p.Accounts given) (field : PayloadField) :
    ({} : PayloadDraft).Takes (ofPayload p given) field (valuesOf field given) := by
  have hfield := h field
  match hvalues : valuesOf field given with
  | [] => exact agrees_ofPayload hvalues
  | [v] =>
      rw [hvalues] at hfield
      exact ⟨by cases field <;> rfl, reads_ofPayload hvalues hfield⟩
  | _ :: _ :: _ => rw [hvalues] at hfield; exact hfield

theorem hasDefault_of_accounts (field : PayloadField) (h : p.Accounts given)
    (hnone : valuesOf field given = []) :
    p.HasDefault field := by
  have hfield := h field
  rw [hnone] at hfield
  exact hfield

theorem finish_ofPayload (h : p.Accounts given) : (ofPayload p given).finish = p := by
  have hslot {α : Type} {field : PayloadField} {x default : α}
      (hdefault : valuesOf field given = [] → x = default) :
      (if valuesOf field given = [] then none else some x).getD default = x := by
    split
    · next hnone => exact (hdefault hnone).symm
    · rfl
  unfold finish ofPayload
  rw [hslot (hasDefault_of_accounts .file h),
    hslot (hasDefault_of_accounts .hasWrite h),
    hslot (hasDefault_of_accounts .lineNumber h),
    hslot (hasDefault_of_accounts .lineContent h),
    hslot (hasDefault_of_accounts .error h)]

/-- The payload that the reader makes of given values is what they account for. -/
theorem finish_foldlM_take?_iff :
    (given.foldlM take? {}).map finish = some p ↔ p.Accounts given := by
  rw [Option.map_eq_some_iff]
  constructor
  · rintro ⟨d, hd, rfl⟩ field
    have htakes := foldlM_take?_eq_some_iff.mp hd field
    match hvalues : valuesOf field given with
    | [] =>
        rw [hvalues] at htakes
        exact hasDefault_finish htakes
    | [v] =>
        rw [hvalues] at htakes
        exact holds_finish htakes.2
    | _ :: _ :: _ => rw [hvalues] at htakes; exact htakes
  · intro h
    exact ⟨_, foldlM_take?_eq_some_iff.mpr (takes_ofPayload h), finish_ofPayload h⟩

/-- The draft with one more member. A key has to stand for a text, known or not. -/
def absorb? (d : PayloadDraft) (m : JsonMember) : Option PayloadDraft :=
  m.key?.bind fun key =>
    match PayloadField.ofKey? key with
    | none => some d
    | some field => d.take? (field, m.2)

/-- Members with keys that are not known do not count, but their keys have to be texts. -/
theorem foldlM_absorb?_eq_some_iff {members : List JsonMember} :
    members.foldlM absorb? d = some d' ↔
      (∀ m ∈ members, m.key? ≠ none) ∧
        (members.filterMap JsonMember.fieldValue?).foldlM take? d = some d' := by
  induction members generalizing d with
  | nil => simp
  | cons m members ih =>
      simp only [List.foldlM_cons, Option.bind_eq_bind, Option.bind_eq_some_iff, ih,
        List.forall_mem_cons]
      cases hkey : m.key? with
      | none => simp [absorb?, hkey]
      | some key =>
          cases hfield : PayloadField.ofKey? key with
          | none => simp [absorb?, JsonMember.fieldValue?, hkey, hfield]
          | some field =>
              have habsorb : d.absorb? m = d.take? (field, m.2) := by
                simp only [absorb?, hkey, Option.bind_some, hfield]
              have hvalue : m.fieldValue? = some (field, m.2) := by
                simp only [JsonMember.fieldValue?, hkey, Option.bind_some, hfield, Option.map_some]
              rw [habsorb, List.filterMap_cons_some hvalue, List.foldlM_cons, Option.bind_eq_bind,
                Option.bind_eq_some_iff]
              constructor
              · rintro ⟨d₁, hd₁, hkeys, hmore⟩
                exact ⟨⟨nofun, hkeys⟩, d₁, hd₁, hmore⟩
              · rintro ⟨⟨-, hkeys⟩, d₁, hd₁, hmore⟩
                exact ⟨d₁, hd₁, hkeys, hmore⟩

/-- The draft with the items of a list as the values of the given fields: no more items
than fields. -/
def fill? (d : PayloadDraft) : List PayloadField → List JsonValue → Option PayloadDraft
  | _, [] => some d
  | [], _ :: _ => none
  | field :: fields, v :: items => (d.with? v field).bind fun d => d.fill? fields items

/-- Items count as values that are given to different fields. -/
theorem fill?_eq_some_iff {fields : List PayloadField} {items : List JsonValue}
    (hdistinct : fields.Nodup) (hnone : ∀ field ∈ fields, d.has field = false) :
    d.fill? fields items = some d' ↔
      items.length ≤ fields.length ∧ (fields.zip items).foldlM take? d = some d' := by
  induction fields generalizing d items with
  | nil =>
      cases items with
      | nil => simp [fill?]
      | cons v items => simp [fill?]
  | cons field fields ih =>
      obtain ⟨hnew, hdistinct⟩ := List.nodup_cons.mp hdistinct
      obtain ⟨hfield, hnone⟩ := List.forall_mem_cons.mp hnone
      cases items with
      | nil => simp [fill?]
      | cons v items =>
          have htake : d.take? (field, v) = d.with? v field := if_neg (by simp [hfield])
          simp only [fill?, List.zip_cons_cons, List.foldlM_cons, htake, Option.bind_eq_bind,
            Option.bind_eq_some_iff, List.length_cons, Nat.add_le_add_iff_right]
          have hmore : ∀ {d₁}, d.with? v field = some d₁ →
              (d₁.fill? fields items = some d' ↔
                items.length ≤ fields.length ∧ (fields.zip items).foldlM take? d₁ = some d') := by
            intro d₁ hd₁
            refine ih hdistinct fun other hother => ?_
            rw [(with?_other hd₁ (ne_of_mem_of_not_mem hother hnew)).1]
            exact hnone other hother
          constructor
          · rintro ⟨d₁, hd₁, hfill⟩
            obtain ⟨hlength, hfold⟩ := (hmore hd₁).mp hfill
            exact ⟨hlength, d₁, hd₁, hfold⟩
          · rintro ⟨hlength, d₁, hd₁, hfold⟩
            exact ⟨d₁, hd₁, (hmore hd₁).mpr ⟨hlength, hfold⟩⟩

end PayloadDraft

/-! ## Whole documents -/

/-- Whether a payload is what the members of an object say: every key stands for a text,
and the members with known keys account for the payload. -/
def Payload.IsOfObject (p : Payload) (members : List JsonMember) : Prop :=
  (∀ m ∈ members, m.key? ≠ none) ∧ p.Accounts (members.filterMap JsonMember.fieldValue?)

/-- Whether a payload is what the items of a list say: there are no more than fields, and
they are the values of the fields in their order. -/
def Payload.IsOfList (p : Payload) (items : List JsonValue) : Prop :=
  items.length ≤ PayloadField.all.length ∧ p.Accounts (PayloadField.all.zip items)

namespace PayloadDraft

variable {p : Payload}

theorem finish_foldlM_absorb?_iff {members : List JsonMember} :
    (members.foldlM absorb? {}).map finish = some p ↔ p.IsOfObject members := by
  unfold Payload.IsOfObject
  rw [← finish_foldlM_take?_iff]
  simp only [Option.map_eq_some_iff, foldlM_absorb?_eq_some_iff]
  constructor
  · rintro ⟨d, ⟨hkeys, hd⟩, hfinish⟩
    exact ⟨hkeys, d, hd, hfinish⟩
  · rintro ⟨hkeys, d, hd, hfinish⟩
    exact ⟨d, ⟨hkeys, hd⟩, hfinish⟩

theorem finish_fill?_iff {items : List JsonValue} :
    (fill? {} PayloadField.all items).map finish = some p ↔ p.IsOfList items := by
  unfold Payload.IsOfList
  rw [← finish_foldlM_take?_iff]
  have hfill : ∀ {d}, fill? {} PayloadField.all items = some d ↔
      items.length ≤ PayloadField.all.length ∧
        (PayloadField.all.zip items).foldlM take? {} = some d :=
    fill?_eq_some_iff (by decide) (by decide)
  simp only [Option.map_eq_some_iff, hfill]
  constructor
  · rintro ⟨d, ⟨hlength, hd⟩, hfinish⟩
    exact ⟨hlength, d, hd, hfinish⟩
  · rintro ⟨hlength, d, hd, hfinish⟩
    exact ⟨d, ⟨hlength, hd⟩, hfinish⟩

end PayloadDraft

end RaceSkeletons
