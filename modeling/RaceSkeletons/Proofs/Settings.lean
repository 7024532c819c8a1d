import RaceSkeletons.Settings.Basic

/-!
# Valid settings

What each check of `Settings.fault?` secures, for the parts of a run that rely
on it.
-/

namespace RaceSkeletons

theorem ite_some_eq_none {α : Type} {fails : Prop} [Decidable fails] {e : α} {o : Option α} :
    (if fails then some e else o) = none ↔ ¬fails ∧ o = none := by
  split
  · next h => simp [h]
  · next h => simp [h]

theorem Settings.isBareExtension_iff {extension : String} : isBareExtension extension = true ↔
    extension ≠ "" ∧ '/' ∉ extension.toList ∧ '.' ∉ extension.toList := by
  simp only [isBareExtension, Bool.and_eq_true, decide_eq_true_eq, Bool.not_eq_true',
    List.any_eq_false, Bool.or_eq_true, beq_iff_eq, not_or]
  constructor
  · rintro ⟨hne, hall⟩
    exact ⟨hne, fun hmem => (hall _ hmem).1 rfl, fun hmem => (hall _ hmem).2 rfl⟩
  · rintro ⟨hne, hslash, hdot⟩
    exact ⟨hne, fun c hc => ⟨fun heq => hslash (heq ▸ hc), fun heq => hdot (heq ▸ hc)⟩⟩

theorem Settings.isIdentifier_of_isValid {s : Settings} (h : s.isValid = true) :
    isIdentifier s.varPrefix = true := by
  rw [isValid, Option.isNone_iff_eq_none] at h
  simp only [fault?, ite_some_eq_none, Bool.not_eq_true', Bool.not_eq_false] at h
  obtain ⟨-, -, -, -, -, hid, -⟩ := h
  exact hid

theorem Settings.isBareExtension_of_isValid {s : Settings} (h : s.isValid = true) :
    isBareExtension s.extension = true := by
  rw [isValid, Option.isNone_iff_eq_none] at h
  simp only [fault?, ite_some_eq_none, Bool.not_eq_true', Bool.not_eq_false] at h
  obtain ⟨-, -, -, -, hbare, -⟩ := h
  exact hbare

end RaceSkeletons
