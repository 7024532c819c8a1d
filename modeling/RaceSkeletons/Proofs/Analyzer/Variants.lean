import RaceSkeletons.Proofs.Analyzer.Printing

/-!
# Objects that say the same

An object may list its members in any order, with unknown ones between them
(`JsonMember.Variant`). What it says as a verdict stays the same
(`Payload.isOfObject_iff_of_variant`): only the values of the known fields count.
-/

namespace RaceSkeletons

namespace JsonMember

/-- Whether the key of a member is a text that the verdict does not know. -/
def IsUnknown (m : JsonMember) : Prop :=
  ∃ key, m.key? = some key ∧ PayloadField.ofKey? key = none

/-- Members that come from others by changing their order and by inserting or removing
members with unknown keys. -/
inductive Variant : List JsonMember → List JsonMember → Prop where
  | reorder {members members' : List JsonMember} (h : members.Perm members') :
      Variant members members'
  | insert {members : List JsonMember} (m : JsonMember) (h : m.IsUnknown) :
      Variant members (m :: members)
  | remove {members : List JsonMember} (m : JsonMember) (h : m.IsUnknown) :
      Variant (m :: members) members
  | trans {members members' members'' : List JsonMember} (first : Variant members members')
      (more : Variant members' members'') : Variant members members''

theorem fieldValue?_of_isUnknown {m : JsonMember} (h : m.IsUnknown) : m.fieldValue? = none := by
  obtain ⟨key, hkey, hnone⟩ := h
  rw [fieldValue?, hkey, Option.bind_some, hnone, Option.map_none]

theorem key?_of_isUnknown {m : JsonMember} (h : m.IsUnknown) : m.key? ≠ none := by
  obtain ⟨key, hkey, -⟩ := h
  rw [hkey]
  nofun

end JsonMember

namespace Payload

variable {p : Payload} {members members' : List JsonMember} {given given' : List FieldValue}

/-- The order in which values are given does not count. -/
theorem accounts_of_perm (h : given.Perm given') (haccounts : p.Accounts given) :
    p.Accounts given' := by
  intro field
  have hvalues : (valuesOf field given).Perm (valuesOf field given') := h.filterMap _
  have hfield := haccounts field
  match hgiven : valuesOf field given with
  | [] =>
      rw [hgiven] at hvalues hfield
      rw [hvalues.nil_eq.symm]
      exact hfield
  | [v] =>
      rw [hgiven] at hvalues hfield
      rw [List.perm_singleton.mp hvalues.symm]
      exact hfield
  | _ :: _ :: _ =>
      rw [hgiven] at hfield
      exact hfield.elim

theorem isOfObject_of_perm (h : members.Perm members') (hp : p.IsOfObject members) :
    p.IsOfObject members' :=
  ⟨fun m hm => hp.1 m (h.mem_iff.mpr hm), accounts_of_perm (h.filterMap _) hp.2⟩

theorem isOfObject_cons_iff_of_isUnknown {m : JsonMember} (h : m.IsUnknown) :
    p.IsOfObject (m :: members) ↔ p.IsOfObject members := by
  unfold IsOfObject
  rw [List.filterMap_cons_none (JsonMember.fieldValue?_of_isUnknown h), List.forall_mem_cons]
  exact and_congr_left fun _ => and_iff_right (JsonMember.key?_of_isUnknown h)

/-- Variants of the members say the same. -/
theorem isOfObject_iff_of_variant (h : JsonMember.Variant members members') :
    p.IsOfObject members ↔ p.IsOfObject members' := by
  induction h with
  | reorder hperm => exact ⟨isOfObject_of_perm hperm, isOfObject_of_perm hperm.symm⟩
  | insert m hm => exact (isOfObject_cons_iff_of_isUnknown hm).symm
  | remove m hm => exact isOfObject_cons_iff_of_isUnknown hm
  | trans _ _ ih ih' => exact ih.trans ih'

/-- Texts of variants are decoded to the same payload, with the same outcome, or none of
them is decoded, whatever blanks are between their tokens and whatever white space is
around. -/
theorem parse_variant {stdout stdout' : String}
    (h : (JsonValue.object members).IsSpelledBy (Text.trim stdout.toList))
    (h' : (JsonValue.object members').IsSpelledBy (Text.trim stdout'.toList))
    (hvariant : JsonMember.Variant members members') :
    (∃ p, parse stdout = .ok p ∧ parse stdout' = .ok p ∧
      Outcome.ofOutput stdout = p.toOutcome ∧ Outcome.ofOutput stdout' = p.toOutcome) ∨
    ∃ e e', parse stdout = .error e ∧ parse stdout' = .error e' ∧
      Outcome.ofOutput stdout = .failed (.decode e.message) ∧
      Outcome.ofOutput stdout' = .failed (.decode e'.message) := by
  have hsame : ∀ p, parse stdout = .ok p ↔ parse stdout' = .ok p := fun p =>
    (parse_object_iff h).trans ((isOfObject_iff_of_variant hvariant).trans
      (parse_object_iff h').symm)
  unfold Outcome.ofOutput
  cases hparse : parse stdout with
  | ok p =>
      have hparse' := (hsame p).mp hparse
      exact .inl ⟨p, rfl, hparse', rfl, by rw [hparse']⟩
  | error e =>
      cases hparse' : parse stdout' with
      | ok p => rw [(hsame p).mpr hparse'] at hparse; cases hparse
      | error e' => exact .inr ⟨e, e', rfl, rfl, rfl, rfl⟩

/-- The same two fields in the other order, behind an unknown one that holds a list. -/
theorem parse_variant_sample :
    parse ("" ++ Json.renderCompact (.record [("file", .text "a.go"), ("has_write", .bool true)]) ++
        "\n") = .ok { file := "a.go", hasWrite := true } ∧
      parse (" " ++ Json.render (.record [("x", .list [.bool false, .record []]),
        ("has_write", .bool true), ("file", .text "a.go")]) ++ "") =
        .ok { file := "a.go", hasWrite := true } := by
  have h := isSpelledBy_record Json.isBlank_compact
    [("file", .text "a.go"), ("has_write", .bool true)] "" "\n" (by decide) (by decide)
  have h' := isSpelledBy_record Json.isBlank_lines
    [("x", .list [.bool false, .record []]), ("has_write", .bool true), ("file", .text "a.go")]
    " " "" (by decide) (by decide)
  have hvariant : JsonMember.Variant
      (Document.jsonMembers [("file", .text "a.go"), ("has_write", .bool true)])
      (Document.jsonMembers [("x", .list [.bool false, .record []]), ("has_write", .bool true),
        ("file", .text "a.go")]) := by
    simp only [Document.jsonMembers_eq_map, List.map_cons, List.map_nil]
    exact .trans (.reorder (.swap _ _ _)) (.insert _ ⟨"x", JsonMember.key?_ofText, by decide⟩)
  have hfirst : parse ("" ++ Json.renderCompact
      (.record [("file", .text "a.go"), ("has_write", .bool true)]) ++ "\n") =
      .ok { file := "a.go", hasWrite := true } :=
    parse_value (p := { file := "a.go", hasWrite := true }) Json.isBlank_compact nofun
      (by decide) (by decide)
  obtain ⟨p, hp, hp', -⟩ | ⟨e, -, he, -⟩ := parse_variant h h' hvariant
  · have hpayload := Except.ok.inj (hfirst.symm.trans hp)
    exact ⟨hfirst, hpayload ▸ hp'⟩
  · cases hfirst.symm.trans he

end Payload

end RaceSkeletons
