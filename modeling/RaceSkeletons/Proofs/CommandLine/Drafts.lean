import Mathlib.Data.List.Perm.Basic
import RaceSkeletons.CommandLine.Parse

/-!
# Options in another order

An option looks at one part of a draft and changes nothing but this part (`OptionId.part`,
`Draft.apply_eq_ok_iff`), and no two options have a part in common. So neighbours change places
(`Draft.apply_swap`), but for two arguments of the analyzer, which share a part that remembers
their order. Two occurrences of an option that is given once are refused in either order.

Any order of some options can be reached by such exchanges, as long as the arguments of the
analyzer keep theirs. So if one order is accepted, all are, with the same draft
(`Draft.applyAll_of_perm`).
-/

namespace RaceSkeletons

/-! ## Parts of a draft -/

/-- The part of a draft that belongs to an option. -/
structure DraftPart where
  Value : Type
  get : Draft → Value
  set : Draft → Value → Draft
  /-- What is in the part after one more occurrence of the option. -/
  give : Value → Option String → Except UsageError Value

namespace DraftPart

/-- The part of an option with a value that is given once. -/
def ofValue {α : Type} (read : String → Except UsageError α) (get : Draft → Option α)
    (set : Draft → Option α → Draft) : DraftPart :=
  ⟨Option α, get, set, fun current value => setOnce current value read⟩

/-- The part of a flag that is given once. -/
def ofFlag (get : Draft → Bool) (set : Draft → Bool → Draft) : DraftPart :=
  ⟨Bool, get, set, fun current _ => raiseOnce current⟩

/-- The part of an option that collects its values. -/
def ofList (get : Draft → List String) (set : Draft → List String → Draft) : DraftPart :=
  ⟨List String, get, set, fun current value =>
    match value with
    | none => .error .invalidValue
    | some s => .ok (current ++ [s])⟩

/-- The part of an option that ends the parse. -/
def ofEnd (e : UsageError) : DraftPart :=
  ⟨Unit, fun _ => (), fun d _ => d, fun _ _ => .error e⟩

end DraftPart

def OptionId.part : OptionId → DraftPart
  | root => .ofValue readPathValue (·.root) fun d v => { d with root := v }
  | combinedFile =>
    .ofValue readPathValue (·.combinedFile) fun d v => { d with combinedFile := v }
  | reportFile => .ofValue readPathValue (·.reportFile) fun d v => { d with reportFile := v }
  | analyzer => .ofValue readPathValue (·.flags.analyzer) fun d v =>
    { d with flags := { d.flags with analyzer := v } }
  | analyzerArg => .ofList (·.flags.analyzerArgs) fun d v =>
    { d with flags := { d.flags with analyzerArgs := v } }
  | workers => .ofValue readNumberValue (·.flags.workers) fun d v =>
    { d with flags := { d.flags with workers := v } }
  | timeout => .ofValue readNumberValue (·.flags.timeout) fun d v =>
    { d with flags := { d.flags with timeout := v } }
  | formatter => .ofValue readPathValue (·.flags.formatter) fun d v =>
    { d with flags := { d.flags with formatter := v } }
  | extension => .ofValue readTextValue (·.flags.extension) fun d v =>
    { d with flags := { d.flags with extension := v } }
  | varPrefix => .ofValue readTextValue (·.flags.varPrefix) fun d v =>
    { d with flags := { d.flags with varPrefix := v } }
  | debugAnalyzer => .ofFlag (·.flags.debugAnalyzer) fun d v =>
    { d with flags := { d.flags with debugAnalyzer := v } }
  | skipNormalize => .ofFlag (·.skipNormalize) fun d v => { d with skipNormalize := v }
  | format => .ofValue readFormatValue (·.format) fun d v => { d with format := v }
  | logLevel => .ofValue readTextValue (·.logLevel) fun d v => { d with logLevel := v }
  | verbose =>
    ⟨Nat, (·.verbose), fun d v => { d with verbose := v },
      fun current _ => .ok (min (current + 1) maxCount)⟩
  | quiet => .ofFlag (·.quiet) fun d v => { d with quiet := v }
  | logJson => .ofFlag (·.logJson) fun d v => { d with logJson := v }
  | help => .ofEnd .help
  | version => .ofEnd .version

namespace OptionId

variable {i j : OptionId}

theorem get_set (i : OptionId) (d : Draft) (x : i.part.Value) :
    i.part.get (i.part.set d x) = x := by
  cases i <;> rfl

theorem get_set_of_ne (h : i ≠ j) (d : Draft) (y : j.part.Value) :
    i.part.get (j.part.set d y) = i.part.get d := by
  cases i <;> cases j <;> first | exact absurd rfl h | rfl

theorem set_comm (h : i ≠ j) (d : Draft) (x : i.part.Value) (y : j.part.Value) :
    i.part.set (j.part.set d y) x = j.part.set (i.part.set d x) y := by
  cases i <;> cases j <;> first | exact absurd rfl h | rfl

end OptionId

section

variable {α : Type} {current after again : Option α} {value value' : Option String}
  {read : String → Except UsageError α} {raised raised' raised'' : Bool}

theorem not_setOnce_twice (h : setOnce current value read = .ok after) :
    setOnce after value' read ≠ .ok again := by
  have hset : after.isSome = true := by
    cases value with
    | none => cases h
    | some s =>
        rw [setOnce] at h
        split at h
        · cases h
        · cases hread : read s <;> rw [hread] at h <;> cases h
          rfl
  cases value' with
  | none => exact nofun
  | some s =>
      rw [setOnce, if_pos hset]
      exact nofun

theorem not_raiseOnce_twice (h : raiseOnce raised = .ok raised') :
    raiseOnce raised' ≠ .ok raised'' := by
  cases raised <;> cases h
  exact nofun

end

/-- An option that can be given more than once is an argument of the analyzer or is counted. -/
theorem OptionId.repeats {i : OptionId} {x y z : i.part.Value} {value value' : Option String}
    (h : i.part.give x value = .ok y) (hagain : i.part.give y value' = .ok z) :
    i = analyzerArg ∨ i = verbose := by
  cases i with
  | analyzerArg => exact .inl rfl
  | verbose => exact .inr rfl
  | help => cases h
  | version => cases h
  | debugAnalyzer => exact absurd hagain (not_raiseOnce_twice h)
  | skipNormalize => exact absurd hagain (not_raiseOnce_twice h)
  | quiet => exact absurd hagain (not_raiseOnce_twice h)
  | logJson => exact absurd hagain (not_raiseOnce_twice h)
  | _ => exact absurd hagain (not_setOnce_twice h)

namespace Draft

variable {d d' d₁ d₂ : Draft} {u v : OptionUse} {uses uses' more before after : List OptionUse}

/-! ## Neighbours -/

theorem apply_eq_ok_iff : d.apply u = .ok d' ↔
    ∃ x, u.id.part.give (u.id.part.get d) u.value = .ok x ∧ d' = u.id.part.set d x := by
  obtain ⟨i, value, isOpen⟩ := u
  have happly : d.apply ⟨i, value, isOpen⟩ =
      (i.part.give (i.part.get d) value).map (i.part.set d) := by
    cases i <;> first | rfl | (cases value <;> rfl)
  rw [happly]
  cases i.part.give (i.part.get d) value with
  | error e => exact ⟨nofun, fun ⟨_, h, _⟩ => nomatch h⟩
  | ok x =>
      constructor
      · rintro ⟨⟩
        exact ⟨x, rfl, rfl⟩
      · rintro ⟨_, ⟨⟩, rfl⟩
        rfl

/-- Whether an occurrence belongs to an argument of the analyzer. -/
def IsArgument (u : OptionUse) : Bool :=
  u.id = .analyzerArg

/-- Neighbours change places, unless both are arguments of the analyzer. -/
theorem apply_swap (hu : d.apply u = .ok d₁) (hv : d₁.apply v = .ok d₂)
    (hfree : u.id = .analyzerArg → v.id ≠ .analyzerArg) :
    ∃ e, d.apply v = .ok e ∧ e.apply u = .ok d₂ := by
  obtain ⟨x, hx, rfl⟩ := apply_eq_ok_iff.mp hu
  obtain ⟨y, hy, rfl⟩ := apply_eq_ok_iff.mp hv
  by_cases hid : u.id = v.id
  · obtain ⟨i, value, isOpen⟩ := u
    obtain ⟨j, value', isOpen'⟩ := v
    obtain rfl : i = j := hid
    rw [OptionId.get_set] at hy
    rcases OptionId.repeats hx hy with rfl | rfl
    · exact absurd rfl (hfree rfl)
    · -- counting does not look at what is given
      exact ⟨_, hu, hv⟩
  · rw [OptionId.get_set_of_ne (Ne.symm hid)] at hy
    refine ⟨v.id.part.set d y, apply_eq_ok_iff.mpr ⟨y, hy, rfl⟩,
      apply_eq_ok_iff.mpr ⟨x, ?_, (OptionId.set_comm hid d x y).symm⟩⟩
    rw [OptionId.get_set_of_ne hid, hx]

/-! ## Any order -/

theorem applyAll_cons_eq_ok_iff : d.applyAll (u :: uses) = .ok d' ↔
    ∃ d₁, d.apply u = .ok d₁ ∧ d₁.applyAll uses = .ok d' := by
  rw [applyAll]
  cases d.apply u with
  | error e => exact ⟨nofun, fun ⟨_, h, _⟩ => nomatch h⟩
  | ok d₁ => exact ⟨fun h => ⟨d₁, rfl, h⟩, fun ⟨_, h, hrest⟩ => Except.ok.inj h ▸ hrest⟩

theorem applyAll_append_eq_ok_iff : d.applyAll (uses ++ more) = .ok d' ↔
    ∃ d₁, d.applyAll uses = .ok d₁ ∧ d₁.applyAll more = .ok d' := by
  induction uses generalizing d with
  | nil => exact ⟨fun h => ⟨d, rfl, h⟩, fun ⟨_, h, hmore⟩ => Except.ok.inj h ▸ hmore⟩
  | cons u uses ih =>
      simp only [List.cons_append, applyAll_cons_eq_ok_iff, ih]
      exact ⟨fun ⟨e, he, e', he', h⟩ => ⟨e', ⟨e, he, he'⟩, h⟩,
        fun ⟨e', ⟨e, he, he'⟩, h⟩ => ⟨e, he, e', he', h⟩⟩

/-- An occurrence that comes first may as well come later. -/
theorem applyAll_move (hu : d.apply u = .ok d₁) (hrest : d₁.applyAll (before ++ after) = .ok d')
    (hfree : u.id = .analyzerArg → ∀ v ∈ before, v.id ≠ .analyzerArg) :
    d.applyAll (before ++ u :: after) = .ok d' := by
  induction before generalizing d d₁ with
  | nil => exact applyAll_cons_eq_ok_iff.mpr ⟨d₁, hu, hrest⟩
  | cons v before ih =>
      obtain ⟨d₂, hv, hrest⟩ := applyAll_cons_eq_ok_iff.mp hrest
      obtain ⟨e, hve, hue⟩ := apply_swap hu hv fun hid => hfree hid v List.mem_cons_self
      refine applyAll_cons_eq_ok_iff.mpr ⟨e, hve, ih hue hrest fun hid w hw => ?_⟩
      exact hfree hid w (List.mem_cons_of_mem v hw)

/-- Options are accepted in any order that keeps the one of the analyzer's arguments. -/
theorem applyAll_of_perm (h : d.applyAll uses = .ok d') (hperm : uses'.Perm uses)
    (horder : uses'.filter IsArgument = uses.filter IsArgument) : d.applyAll uses' = .ok d' := by
  induction uses generalizing d uses' with
  | nil => rwa [hperm.eq_nil]
  | cons u rest ih =>
      obtain ⟨d₁, hu, hrest⟩ := applyAll_cons_eq_ok_iff.mp h
      -- where the first occurrence stands now, and how the others stand around it
      obtain ⟨before, after, rfl, hfree, hothers⟩ : ∃ before after, uses' = before ++ u :: after ∧
          (u.id = .analyzerArg → ∀ v ∈ before, v.id ≠ .analyzerArg) ∧
          (before ++ after).filter IsArgument = rest.filter IsArgument := by
        by_cases hargument : IsArgument u = true
        · rw [List.filter_cons_of_pos hargument, List.filter_eq_cons_iff] at horder
          obtain ⟨before, after, rfl, hnone, -, hafter⟩ := horder
          refine ⟨before, after, rfl, fun _ v hv => ?_, ?_⟩
          · simpa [IsArgument] using hnone v hv
          · rw [List.filter_append, List.filter_eq_nil_iff.mpr hnone, hafter, List.nil_append]
        · obtain ⟨before, after, rfl⟩ := List.append_of_mem (hperm.mem_iff.mpr List.mem_cons_self)
          refine ⟨before, after, rfl, fun hid => absurd hid (by simpa [IsArgument] using hargument),
            ?_⟩
          rwa [List.filter_cons_of_neg hargument, List.filter_append,
            List.filter_cons_of_neg hargument, ← List.filter_append] at horder
      have hmiddle : (before ++ after).Perm rest :=
        (List.perm_middle.symm.trans hperm).cons_inv
      exact applyAll_move hu (ih hrest hmiddle hothers) hfree

/-! ## Arguments of the analyzer -/

/-- The value of an occurrence if it is an argument of the analyzer. -/
def argument? (u : OptionUse) : Option String :=
  if u.id = .analyzerArg then u.value else none

theorem argument?_eq_none (h : u.id ≠ .analyzerArg) : argument? u = none :=
  if_neg h

theorem analyzerArgs_apply (h : d.apply u = .ok d') :
    d'.flags.analyzerArgs = d.flags.analyzerArgs ++ (argument? u).toList := by
  obtain ⟨i, value, isOpen⟩ := u
  by_cases hid : i = .analyzerArg
  · subst hid
    cases value with
    | none => cases h
    | some s => cases h; rfl
  · obtain ⟨x, -, rfl⟩ := apply_eq_ok_iff.mp h
    rw [argument?_eq_none hid, Option.toList_none, List.append_nil]
    exact OptionId.get_set_of_ne (Ne.symm hid) d x

/-- The arguments of the analyzer are kept in order, whatever stands between them. -/
theorem analyzerArgs_applyAll (h : d.applyAll uses = .ok d') :
    d'.flags.analyzerArgs = d.flags.analyzerArgs ++ uses.filterMap argument? := by
  induction uses generalizing d with
  | nil =>
      cases h
      exact (List.append_nil _).symm
  | cons u rest ih =>
      obtain ⟨d₁, hu, hrest⟩ := applyAll_cons_eq_ok_iff.mp h
      rw [ih hrest, analyzerArgs_apply hu, List.append_assoc]
      cases hvalue : argument? u <;> simp [hvalue]

end Draft

end RaceSkeletons
