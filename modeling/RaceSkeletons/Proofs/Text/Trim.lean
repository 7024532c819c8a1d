import RaceSkeletons.Text.Blank

/-!
# Trimming

A trimmed text has no white space at its ends, and a text without white space at its
ends is what is left of it with any white space around.
-/

namespace RaceSkeletons.Text

theorem trimEnd_prefix (s : List Char) : trimEnd s <+: s :=
  List.reverse_suffix.mp (by rw [trimEnd, List.reverse_reverse]; exact List.dropWhile_suffix _)

/-- A trimmed text begins with no white space. -/
theorem not_isBlank_head_trim {s : List Char} {c : Char} (h : (trim s).head? = some c) :
    isBlank c = false := by
  obtain ⟨rest, hrest⟩ := trimEnd_prefix (trimStart s)
  have hstart : (s.dropWhile isBlank).head? = some c := by
    obtain ⟨more, hmore⟩ := List.head?_eq_some_iff.mp h
    rw [trim] at hmore
    rw [← trimStart, ← hrest, hmore]
    rfl
  have hhead := List.head?_dropWhile_not isBlank s
  rw [hstart] at hhead
  simpa using hhead

theorem dropWhile_append_of_head {before text : List Char}
    (hbefore : ∀ c ∈ before, isBlank c = true) (hhead : ∀ c ∈ text.head?, isBlank c = false) :
    (before ++ text).dropWhile isBlank = text := by
  rw [List.dropWhile_append_of_pos hbefore]
  cases text with
  | nil => rfl
  | cons c text => rw [List.dropWhile_cons_of_neg (by simp [hhead c rfl])]

/-- White space around a text is taken away, if the text has none at its own ends. -/
theorem trim_around {before text after : List Char} (hbefore : ∀ c ∈ before, isBlank c = true)
    (hafter : ∀ c ∈ after, isBlank c = true) (hne : text ≠ [])
    (hhead : ∀ c ∈ text.head?, isBlank c = false)
    (hlast : ∀ c ∈ text.getLast?, isBlank c = false) : trim (before ++ text ++ after) = text := by
  have hstart : trimStart (before ++ text ++ after) = text ++ after := by
    rw [trimStart, List.append_assoc]
    refine dropWhile_append_of_head hbefore ?_
    cases text with
    | nil => exact absurd rfl hne
    | cons c text => exact hhead
  rw [trim, hstart, trimEnd, List.reverse_append, dropWhile_append_of_head, List.reverse_reverse]
  · exact fun c hc => hafter c (List.mem_reverse.mp hc)
  · rwa [List.head?_reverse]

end RaceSkeletons.Text
